import AssetCache.Bytes
import AssetCache.LoadError
import AssetCache.Reader

/-! # Readers of cache data

The encodings that all cache files share. A read past the end fails and says how much it needed and how
much was left. Each `run_…_append` says that a reader takes exactly what the writer of the same name
puts in front of other bytes. -/

namespace AssetCache

/-- A reader of cache data. -/
abbrev ByteReader := Reader UInt8 LoadError

namespace ByteReader
open LoadError

/-- The next byte. -/
def byte : ByteReader UInt8 where
  run
    | a :: r => .ok (a, r)
    | [] => .error (endOfData 1 0)
  suffix {s a r} h := by
    split at h
    · cases h; exact List.suffix_cons _ _
    · nomatch h

/-- A signed byte in two's complement. -/
def i8 : ByteReader Int8 := UInt8.toInt8 <$> byte

/-- A 16-bit word. -/
def u16 : ByteReader UInt16 where
  run
    | a :: b :: r => .ok (Bytes.toU16 a b, r)
    | s => .error (endOfData 2 s.length)
  suffix {s a r} h := by
    split at h
    · next x y t => cases h; exact ⟨[x, y], rfl⟩
    · nomatch h

/-- A signed 16-bit word in two's complement. -/
def i16 : ByteReader Int16 := UInt16.toInt16 <$> u16

/-- A number of three bytes. -/
def u24 : ByteReader Nat where
  run
    | a :: b :: c :: r => .ok (Bytes.toU24 a b c, r)
    | s => .error (endOfData 3 s.length)
  suffix {s a r} h := by
    split at h
    · next x y z t => cases h; exact ⟨[x, y, z], rfl⟩
    · nomatch h

/-- A 32-bit word. -/
def u32 : ByteReader UInt32 where
  run
    | a :: b :: c :: d :: r => .ok (Bytes.toU32 a b c d, r)
    | s => .error (endOfData 4 s.length)
  suffix {s a r} h := by
    split at h
    · next w x y z t => cases h; exact ⟨[w, x, y, z], rfl⟩
    · nomatch h

/-- A number below `0x8000` in one byte if that is below `0x80`, else in two bytes with the top bit
set. -/
def smart : ByteReader UInt16 where
  run
    | [] => .error (endOfData 1 0)
    | a :: r =>
      if a < 0x80 then .ok (a.toUInt16, r)
      else
        match r with
        | [] => .error (endOfData 2 1)
        | b :: r => .ok (Bytes.toU16 a b - 0x8000, r)
  suffix {s a r} h := by
    split at h
    · nomatch h
    · next x t =>
      split at h
      · cases h; exact List.suffix_cons _ _
      · split at h
        · nomatch h
        · next y t => cases h; exact ⟨[x, y], rfl⟩

/-- A text up to its line end, which is taken too. -/
def text : ByteReader String where
  run s :=
    match s.dropWhile (· != Bytes.lineEnd) with
    | _ :: r => .ok (Bytes.toText (s.takeWhile (· != Bytes.lineEnd)), r)
    | [] => .error (endOfData (s.length + 1) s.length)
  suffix {s a r} h := by
    split at h
    · next x t hd =>
      cases h
      exact (List.suffix_cons x _).trans (hd ▸ List.dropWhile_suffix _)
    · nomatch h

/-- The next `count` bytes. -/
def bytes (count : Nat) : ByteReader Bytes where
  run s :=
    if count ≤ s.length then .ok (s.take count, s.drop count) else .error (endOfData count s.length)
  suffix {s a r} h := by
    split at h
    · cases h; exact List.drop_suffix _ _
    · nomatch h

/-- Passes over `count` bytes. -/
def skip (count : Nat) : ByteReader Unit := (fun _ => ()) <$> bytes count

theorem strict_byte : byte.Strict := by
  intro s a r h
  cases s with
  | nil => nomatch h
  | cons => cases h; simp

theorem strict_u16 : u16.Strict := by
  intro s a r h
  match s, h with
  | x :: y :: t, h => cases h; simp only [List.length_cons]; omega

theorem strict_smart : smart.Strict := by
  intro s a r h
  match s, h with
  | x :: t, h =>
    simp only [smart] at h
    split at h
    · cases h; simp
    · split at h
      · nomatch h
      · cases h; simp only [List.length_cons]; omega

theorem run_u16_append (w : UInt16) (r : Bytes) : u16.run (Bytes.ofU16 w ++ r) = .ok (w, r) := by
  simp only [u16, Bytes.ofU16, List.cons_append, List.nil_append, Bytes.toU16_ofU16]

theorem eq_of_run_u16 {s r : Bytes} {w : UInt16} (h : u16.run s = .ok (w, r)) : s = Bytes.ofU16 w ++ r := by
  match s, h with
  | a :: b :: t, h =>
    cases h
    rw [Bytes.ofU16_toU16]
    rfl

theorem run_u24_append {n : Nat} (h : n < 0x1000000) (r : Bytes) :
    u24.run (Bytes.ofU24 n ++ r) = .ok (n, r) := by
  simp only [u24, Bytes.ofU24, List.cons_append, List.nil_append, Bytes.toU24_ofU24 h]

theorem run_u32_append (w : UInt32) (r : Bytes) : u32.run (Bytes.ofU32 w ++ r) = .ok (w, r) := by
  simp only [u32, Bytes.ofU32, List.cons_append, List.nil_append, Bytes.toU32_ofU32]

theorem run_smart_short {w : UInt16} (h : w < 0x80) (r : Bytes) :
    smart.run (w.toUInt8 :: r) = .ok (w, r) := by
  have hw : w.toNat < 128 := h
  have small : w.toUInt8 < 0x80 := by
    show w.toUInt8.toNat < 128
    simp only [UInt16.toNat_toUInt8]
    omega
  have same : w.toUInt8.toUInt16 = w := by
    apply UInt16.toNat_inj.1
    simp only [UInt8.toNat_toUInt16, UInt16.toNat_toUInt8]
    omega
  simp only [smart, if_pos small, same]

theorem run_smart_long {w : UInt16} (h : w < 0x8000) (r : Bytes) :
    smart.run (Bytes.ofU16 (w + 0x8000) ++ r) = .ok (w, r) := by
  have hw : w.toNat < 32768 := h
  have sum : (w + 0x8000).toNat = w.toNat + 32768 := by
    rw [UInt16.toNat_add]
    show (w.toNat + 32768) % 65536 = _
    omega
  have large : ¬ UInt8.ofNat ((w + 0x8000).toNat / 256) < 0x80 := by
    show ¬ (UInt8.ofNat ((w + 0x8000).toNat / 256)).toNat < 128
    simp only [UInt8.toNat_ofNat', sum]
    omega
  simp only [smart, Bytes.ofU16, List.cons_append, List.nil_append, if_neg large, Bytes.toU16_ofU16,
    UInt16.add_sub_cancel]

theorem run_text_append {t : String} (h : Bytes.IsLine t) (r : Bytes) :
    text.run (Bytes.ofLine t ++ r) = .ok (t, r) := by
  have hne := Bytes.ne_lineEnd_of_mem_ofText h
  have hd : (Bytes.ofLine t ++ r).dropWhile (· != Bytes.lineEnd) = Bytes.lineEnd :: r := by
    rw [Bytes.ofLine, List.append_assoc, List.dropWhile_append_of_pos hne]
    rfl
  have ht : (Bytes.ofLine t ++ r).takeWhile (· != Bytes.lineEnd) = Bytes.ofText t := by
    rw [Bytes.ofLine, List.append_assoc, List.takeWhile_append_of_pos hne]
    simp
  simp only [text, hd, ht, Bytes.toText_ofText fun c hc => (h c hc).1]

theorem run_bytes_append (bs r : Bytes) : (bytes bs.length).run (bs ++ r) = .ok (bs, r) := by
  simp [bytes]

end ByteReader

end AssetCache
