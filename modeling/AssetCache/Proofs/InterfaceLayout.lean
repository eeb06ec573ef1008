import Mathlib
import AssetCache.Interface.Layout
import AssetCache.Proofs.ReaderWords

/-!
# Reading what the layout of an interface says

Each part of a record is read back as what it was written for and takes exactly its own bytes (`Takes`), so the
record does (`takes_read`), though nothing in front of it says how long it is. Main statement: `read_encode`, a
record is read back whatever comes next, and in any part of it that is less than the whole the bytes run out.
-/

namespace AssetCache.Interface
open ByteReader
variable {max : UInt16}

/-! ### Fields -/

theorem takes_byte (b : UInt8) : Takes byte [b] b := recognizes_byte.takes rfl

theorem takes_u16 (n : UInt16) : Takes u16 (Bytes.ofU16 n) n := recognizes_u16.takes rfl

theorem takes_u32 (n : UInt32) : Takes u32 (Bytes.ofU32 n) n := recognizes_u32.takes rfl

theorem takes_i16 (n : Int16) : Takes i16 (Bytes.ofU16 n.toUInt16) n := recognizes_i16.takes rfl

theorem takes_text {t : String} (h : Bytes.IsLine t) : Takes text (Bytes.ofLine t) t :=
  recognizes_text.takes ⟨h, rfl⟩

theorem takes_flag (b : Bool) : Takes flag (encodeFlag b) b := by
  have h := (takes_byte b.toUInt8).map (β := Bool) (· = 1)
  cases b <;> exact h

theorem takes_packedId {id : Option UInt16} (h : PackedIdFits id) :
    Takes packedId (encodePackedId id) id := by
  unfold packedId
  cases id with
  | none => exact (takes_byte 0).bind (.pure none)
  | some id =>
    have hid : id.toNat ≤ 0xFEFF := h id rfl
    have hsum : (id + 0x100).toNat = id.toNat + 0x100 := by
      rw [UInt16.toNat_add]
      show (id.toNat + 256) % 65536 = _
      omega
    have hhigh : (UInt8.ofNat ((id + 0x100).toNat / 256)).toNat = id.toNat / 256 + 1 := by
      rw [UInt8.toNat_ofNat', hsum]
      omega
    have hne : UInt8.ofNat ((id + 0x100).toNat / 256) ≠ 0 := by
      intro h0
      rw [h0] at hhigh
      exact Nat.succ_ne_zero _ hhigh.symm
    have hword : Bytes.toU16 (UInt8.ofNat ((id + 0x100).toNat / 256) - 1) (UInt8.ofNat (id + 0x100).toNat) = id := by
      refine UInt16.toNat_inj.1 ?_
      have hle : (1 : UInt8) ≤ UInt8.ofNat ((id + 0x100).toNat / 256) := by
        show 1 ≤ (UInt8.ofNat ((id + 0x100).toNat / 256)).toNat
        omega
      rw [Bytes.toU16, UInt16.toNat_ofNat', UInt8.toNat_sub_of_le _ _ hle, hhigh, UInt8.toNat_ofNat', hsum]
      show (256 * (id.toNat / 256 + 1 - 1) + (id.toNat + 256) % 256) % 65536 = _
      omega
    refine (takes_byte _).bind (u := [_]) (v := [_]) ?_
    rw [if_neg hne]
    have hlow := (takes_byte (UInt8.ofNat (id + 0x100).toNat)).bind_pure fun low =>
      some (Bytes.toU16 (UInt8.ofNat ((id + 0x100).toNat / 256) - 1) low)
    rwa [hword] at hlow

theorem takes_label {l : Option String} (h : LabelFits l) : Takes label (encodeLabel l) l := by
  unfold label
  cases l with
  | none => exact (takes_text (t := "") (by simp [Bytes.IsLine])).bind_pure _
  | some t =>
    obtain ⟨hne, hline⟩ := h t rfl
    have ht := (takes_text hline).bind_pure fun t => if t = "" then none else some t
    rwa [if_neg hne] at ht

theorem takes_offset {v : Vec2} (h : OffsetFits v) : Takes readOffset (encodeOffset v) v := by
  obtain ⟨⟨hx, hx'⟩, hy, hy'⟩ := h
  have hv : (⟨(Int16.ofInt v.x).toInt, (Int16.ofInt v.y).toInt⟩ : Vec2) = v := by
    rw [Int16.toInt_ofInt_of_le hx hx', Int16.toInt_ofInt_of_le hy hy']
  conv => arg 3; rw [← hv]
  exact (takes_i16 _).bind ((takes_i16 _).bind_pure _)

theorem takes_checkId {id : UInt16} (h : id < max) : Takes (checkId id max) [] () := by
  rw [checkId, if_pos h]
  exact .pure ()

theorem takes_style (s : TextStyle) : Takes readStyle s.encode s := by
  simp only [TextStyle.encode, List.append_assoc]
  exact (takes_flag _).bind <| (takes_byte _).bind <| (takes_flag _).bind <| (takes_u32 _).bind_pure _

/-! ### Lists -/

theorem takes_condition (c : Condition) : Takes readCondition (c.kind :: Bytes.ofU16 c.value) c :=
  (takes_byte _).bind ((takes_u16 _).bind_pure _)

theorem toNat_ofNat_length8 {α : Type} {as : List α} (h : as.length < 0x100) :
    (UInt8.ofNat as.length).toNat = as.length := UInt8.toNat_ofNat_of_lt' h

theorem toNat_ofNat_length16 {α : Type} {as : List α} (h : as.length < 0x10000) :
    (UInt16.ofNat as.length).toNat = as.length := UInt16.toNat_ofNat_of_lt' h

theorem takes_script {script : List UInt16} (h : script.length < 0x10000) :
    Takes readScript (Bytes.ofU16 (UInt16.ofNat script.length) ++ script.flatMap Bytes.ofU16) script :=
  (takes_u16 _).bind (.replicate (toNat_ofNat_length16 h) fun n _ => takes_u16 n)

theorem takes_child {c : ChildPlacement} (hid : c.id < max) (hpos : OffsetFits c.position) :
    Takes (readChild max) (Bytes.ofU16 c.id ++ encodeOffset c.position) c :=
  (takes_u16 _).bind <| (takes_checkId hid).bind (v := encodeOffset c.position) <| (takes_offset hpos).bind_pure _

theorem takes_slotSprite {sprite : Option SlotSprite}
    (h : ∀ s ∈ sprite, OffsetFits s.offset ∧ Bytes.IsLine s.sprite) :
    Takes readSlotSprite (encodeSlotSprite sprite) sprite := by
  unfold readSlotSprite
  cases sprite with
  | none => exact (takes_flag false).bind (.pure none)
  | some s =>
    obtain ⟨hoffset, hline⟩ := h s rfl
    simp only [encodeSlotSprite, List.append_assoc]
    exact (takes_flag true).bind <| (takes_offset hoffset).bind <| (takes_text hline).bind_pure _

theorem takes_actions {actions : List (Option String)} (hlen : actions.length = actionSlots)
    (h : ∀ a ∈ actions, LabelFits a) : Takes readActions (actions.flatMap encodeLabel) actions :=
  .replicate hlen.symm fun a ha => takes_label (h a ha)

theorem takes_selectedAction {a : SelectedAction} (h : a.Fits) : Takes readSelectedAction a.encode a := by
  simp only [SelectedAction.encode, List.append_assoc]
  exact (takes_text h.1).bind <| (takes_text h.2).bind <| (takes_u16 _).bind_pure _

/-- A part is there exactly if it has to be. -/
theorem takes_readIf {α : Type} {p : ByteReader α} {enc : α → Bytes} {present : Bool} {o : Option α}
    (hpresent : o.isSome = present) (h : ∀ a ∈ o, Takes p (enc a) a) :
    Takes (readIf present p) ((o.map enc).getD []) o := by
  subst hpresent
  cases o with
  | none => exact .pure none
  | some a => exact (h a rfl).map some

/-! ### Shapes -/

section Shapes
variable {s : Shape} (word : UInt16) (byte : UInt8)

/-- A shape before its text is read, which only a tooltip has to wait for. -/
def untold : Shape → Shape
  | .tooltip _ => .tooltip ""
  | s => s

theorem takes_container {scrollMax : UInt16} {hidden : Bool} {children : List ChildPlacement}
    (h : (Shape.container scrollMax hidden children).Fits max) :
    Takes (readContainer max) ((Shape.container scrollMax hidden children).encode word byte)
      (.container scrollMax hidden children) := by
  simp only [Shape.encode, List.append_assoc]
  refine (takes_u16 _).bind <| (takes_flag _).bind <| (takes_u16 _).bind ?_
  exact (Takes.replicate (toNat_ofNat_length16 h.1) fun c hc => takes_child (h.2 c hc).1 (h.2 c hc).2).bind_pure _

theorem takes_unused (style : TextStyle) :
    Takes readUnused ((Shape.unused style).encode word byte) (.unused style) := by
  simp only [Shape.encode, List.append_assoc]
  exact (takes_u16 _).bind <| (takes_byte _).bind <| (takes_style style).map _

theorem takes_inventory {swappable hasActions usable replacesItems : Bool} {padding : Vec2}
    {sprites : List (Option SlotSprite)}
    (h : (Shape.inventory swappable hasActions usable replacesItems padding sprites).Fits max) :
    Takes readInventory
      ((Shape.inventory swappable hasActions usable replacesItems padding sprites).encode word byte)
      (.inventory swappable hasActions usable replacesItems padding sprites) := by
  obtain ⟨⟨hx, hx'⟩, ⟨hy, hy'⟩, hlen, hsprites⟩ := h
  have hxn : padding.x.toNat < 256 := by omega
  have hyn : padding.y.toNat < 256 := by omega
  have hpadding : (⟨(UInt8.ofNat padding.x.toNat).toNat, (UInt8.ofNat padding.y.toNat).toNat⟩ : Vec2) = padding := by
    rw [UInt8.toNat_ofNat_of_lt' hxn, UInt8.toNat_ofNat_of_lt' hyn, Int.toNat_of_nonneg hx, Int.toNat_of_nonneg hy]
  simp only [Shape.encode, List.append_assoc, List.cons_append, List.nil_append]
  refine (takes_flag _).bind <| (takes_flag _).bind <| (takes_flag _).bind <| (takes_flag _).bind <|
    (takes_byte _).bind (u := [_]) <| (takes_byte _).bind (u := [_]) ?_
  conv => arg 3; rw [← hpadding]
  exact (Takes.replicate hlen.symm fun s hs => takes_slotSprite (hsprites s hs)).bind_pure _

theorem takes_rectangle (filled : Bool) (colour activeColour hoverColour activeHoverColour : UInt32) :
    Takes readRectangle
      ((Shape.rectangle filled colour activeColour hoverColour activeHoverColour).encode word byte)
      (.rectangle filled colour activeColour hoverColour activeHoverColour) := by
  simp only [Shape.encode, List.append_assoc]
  exact (takes_flag _).bind <| (takes_u32 _).bind <| (takes_u32 _).bind <| (takes_u32 _).bind <|
    (takes_u32 _).bind_pure _

theorem takes_shapeText {style : TextStyle} {content activeText : String}
    {activeColour hoverColour activeHoverColour : UInt32}
    (h : (Shape.text style content activeText activeColour hoverColour activeHoverColour).Fits max) :
    Takes readText
      ((Shape.text style content activeText activeColour hoverColour activeHoverColour).encode word byte)
      (.text style content activeText activeColour hoverColour activeHoverColour) := by
  simp only [Shape.encode, List.append_assoc]
  exact (takes_flag _).bind <| (takes_byte _).bind <| (takes_flag _).bind <| (takes_text h.1).bind <|
    (takes_text h.2).bind <| (takes_u32 _).bind <| (takes_u32 _).bind <| (takes_u32 _).bind <|
    (takes_u32 _).bind_pure _

theorem takes_sprite {inactive active : Option String} (h : (Shape.sprite inactive active).Fits max) :
    Takes readSprite ((Shape.sprite inactive active).encode word byte) (.sprite inactive active) :=
  (takes_label h.1).bind <| (takes_label h.2).bind_pure _

theorem takes_model {inactive active animation activeAnimation : Option UInt16} {zoom : UInt16} {rotation : Vec2}
    (h : (Shape.model inactive active animation activeAnimation zoom rotation).Fits max) :
    Takes readModel ((Shape.model inactive active animation activeAnimation zoom rotation).encode word byte)
      (.model inactive active animation activeAnimation zoom rotation) := by
  obtain ⟨hinactive, hactive, hanimation, hactiveAnimation, ⟨hx, hx'⟩, hy, hy'⟩ := h
  have hxn : rotation.x.toNat < 65536 := by omega
  have hyn : rotation.y.toNat < 65536 := by omega
  have hrotation :
      (⟨(UInt16.ofNat rotation.x.toNat).toNat, (UInt16.ofNat rotation.y.toNat).toNat⟩ : Vec2) = rotation := by
    rw [UInt16.toNat_ofNat_of_lt' hxn, UInt16.toNat_ofNat_of_lt' hyn, Int.toNat_of_nonneg hx,
      Int.toNat_of_nonneg hy]
  simp only [Shape.encode, List.append_assoc]
  refine (takes_packedId hinactive).bind <| (takes_packedId hactive).bind <| (takes_packedId hanimation).bind <|
    (takes_packedId hactiveAnimation).bind <| (takes_u16 _).bind <| (takes_u16 _).bind ?_
  conv => arg 3; rw [← hrotation]
  exact (takes_u16 _).bind_pure _

theorem takes_itemList {style : TextStyle} {padding : Vec2} {hasActions : Bool}
    (h : (Shape.itemList style padding hasActions).Fits max) :
    Takes readItemList ((Shape.itemList style padding hasActions).encode word byte)
      (.itemList style padding hasActions) := by
  simp only [Shape.encode, List.append_assoc]
  exact (takes_style style).bind <| (takes_offset h).bind <| (takes_flag _).bind_pure _

/-- What comes before the actions is read as the shape, without the text of a tooltip. -/
theorem takes_shape (h : s.Fits max) :
    Takes (readShape max s.typeId) (s.encode word byte) (untold s) := by
  cases s with
  | container => exact takes_container word byte h
  | unused style => exact takes_unused word byte style
  | inventory => exact takes_inventory word byte h
  | rectangle => exact takes_rectangle word byte ..
  | text => exact takes_shapeText word byte h
  | sprite => exact takes_sprite word byte h
  | model => exact takes_model word byte h
  | itemList => exact takes_itemList word byte h
  | tooltip => exact .pure _

theorem takes_tooltipText (h : s.Fits max) : Takes (readTooltipText (untold s)) s.encodeTooltip s := by
  cases s with
  | tooltip => exact (takes_text h).map _
  | _ => exact .pure _

end Shapes

/-! ### Records -/

/-- A record takes its own bytes and no others. -/
theorem takes_read {i : Interface} (h : i.Fits max) (word : UInt16) (byte : UInt8) :
    Takes (read i.id max) (i.encode word byte) i := by
  obtain ⟨id, shape, actionType, contentType, width, height, opacity, hoverId, conditions, scripts, actions,
    selectedAction, tooltip, parent, children⟩ := i
  obtain rfl : parent = none := h.parent
  obtain rfl : children = [] := h.children
  simp only [encode, List.append_assoc, List.cons_append, List.nil_append]
  unfold read
  refine (takes_byte _).bind (u := [_]) <| (takes_byte _).bind (u := [_]) <| (takes_u16 _).bind <|
    (takes_u16 _).bind <| (takes_u16 _).bind <| (takes_byte _).bind (u := [_]) <|
    (takes_packedId h.hoverId).bind <| (takes_byte _).bind (u := [_]) <|
    (Takes.replicate (toNat_ofNat_length8 h.conditions) fun c _ => takes_condition c).bind <|
    (takes_byte _).bind (u := [_]) <|
    (Takes.replicate (toNat_ofNat_length8 h.scripts) fun s hs => takes_script (h.script s hs)).bind ?_
  exact (takes_shape word byte h.shape).bind <|
    (takes_readIf h.actions_isSome fun a ha => takes_actions (h.actions a ha).1 (h.actions a ha).2).bind <|
    (takes_readIf h.selectedAction_isSome fun a ha => takes_selectedAction (h.selectedAction a ha)).bind <|
    (takes_tooltipText h.shape).bind <|
    (takes_readIf h.tooltip_isSome fun t ht => takes_text (h.tooltip t ht)).bind_pure _

/-- The record of an interface is read back as the interface, whatever comes next, and leaves exactly that;
in every proper prefix of it the bytes run out. -/
theorem read_encode {i : Interface} (h : i.Fits max) (word : UInt16) (byte : UInt8) :
    (∀ rest, (read i.id max).run (i.encode word byte ++ rest) = .ok (i, rest)) ∧
      ∀ s, s <+: i.encode word byte → s ≠ i.encode word byte →
        ∃ needed remaining, (read i.id max).run s = .error (.endOfData needed remaining) := by
  have htakes := takes_read h word byte
  refine ⟨htakes.run, fun s hcut hne => ?_⟩
  exact htakes.starves s (Bytes.endsInside_iff.2 ⟨hcut, hne⟩)

/-- An inventory with every part that a record can have. -/
def bank : Interface where
  id := 7
  shape := .inventory true false true false ⟨3, 255⟩ (some ⟨⟨-32768, 5⟩, "slot"⟩ :: List.replicate 19 none)
  actionType := 5
  contentType := 300
  width := 190
  height := 261
  opacity := 0
  hoverId := some 0xFEFF
  conditions := [⟨1, 2⟩, ⟨3, 65535⟩]
  scripts := [[4, 65535], []]
  actions := some [none, some "Withdraw 1", none, none, some "Examine"]
  selectedAction := some ⟨"Use", "", 9⟩
  tooltip := some "Bank"

theorem fits_bank : bank.Fits 0 where
  shape := ⟨by decide, by decide, by decide, by decide +kernel⟩
  hoverId := by decide
  conditions := by decide
  scripts := by decide
  script := by decide
  actions_isSome := by decide
  actions := by decide +kernel
  selectedAction_isSome := by decide
  selectedAction := by
    rintro a ⟨⟩
    exact ⟨by decide +kernel, by decide +kernel⟩
  tooltip_isSome := by decide
  tooltip := by decide +kernel
  parent := rfl
  children := rfl

theorem read_encode_bank : bank.Fits 0 ∧
    (read 7 0).run (bank.encode 1 2 ++ [7, 8]) = .ok (bank, [7, 8]) ∧
    ∃ needed remaining, (read 7 0).run ((bank.encode 1 2).take 40) = .error (.endOfData needed remaining) := by
  obtain ⟨hread, hcut⟩ := read_encode fits_bank 1 2
  have hne : (bank.encode 1 2).take 40 ≠ bank.encode 1 2 := by
    intro h
    have hlen := congrArg List.length h
    revert hlen
    decide +kernel
  exact ⟨fits_bank, hread [7, 8], hcut _ (List.take_prefix 40 _) hne⟩

end AssetCache.Interface
