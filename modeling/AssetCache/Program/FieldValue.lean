import AssetCache.Pattern

/-! # Values of fields

What a directive may ask a field for: a number, or a pattern that its value matches. -/

namespace AssetCache.Program.FieldValue

/-- A text without the sign that may come first. -/
def unsigned : List Char → List Char
  | '+' :: cs | '-' :: cs => cs
  | cs => cs

def isExponent : List Char → Bool
  | [] => true
  | c :: cs => (c = 'e' || c = 'E') && unsigned cs ≠ [] && (unsigned cs).all Char.isDigit

/-- Whether a text is a number: digits with at most one point among or around them and perhaps an
exponent, or a word for what is not finite. -/
def isNumber (text : String) : Bool :=
  let cs := unsigned text.toList
  let (whole, rest) := cs.span Char.isDigit
  let (places, rest) := match rest with
    | '.' :: cs => cs.span Char.isDigit
    | cs => ([], cs)
  ["inf", "infinity", "nan"].contains (String.ofList cs).toLower ||
    whole ++ places ≠ [] && isExponent rest

/-- Whether a field may be asked for a value. -/
def isValid (text : String) : Bool := isNumber text || Pattern.isValid text

end AssetCache.Program.FieldValue
