import Mathlib
import AssetCache.ByteReader

/-!
# The words that readers read

`Takes p w a`: `p` takes the word `w` off the front of whatever starts with it and answers `a`, and in anything
less than `w` it runs out of bytes. `Recognizes p L`: `p` takes the words that the language `L` has for what it
answers, and nothing goes wrong but that the bytes end inside of such a word. Both go through the ways in which
readers are put together (`bind`, `map`, `replicate`), so that a reader of records is dealt with part by part;
`Recognizes.takes` leads from a language to its words.
-/

namespace AssetCache

namespace Bytes
variable {s u v : Bytes}

/-- That bytes end inside of a word, which has at least one byte more. -/
def EndsInside (s w : Bytes) : Prop := ∃ b t, w = s ++ b :: t

theorem endsInside_iff {w : Bytes} : EndsInside s w ↔ s <+: w ∧ s ≠ w := by
  constructor
  · rintro ⟨b, t, rfl⟩
    exact ⟨List.prefix_append s _, by simp⟩
  · rintro ⟨⟨t, rfl⟩, hne⟩
    cases t with
    | nil => exact absurd (List.append_nil s).symm hne
    | cons b t => exact ⟨b, t, rfl⟩

theorem EndsInside.nil_right : ¬ EndsInside s [] := by
  rintro ⟨b, t, h⟩
  exact List.cons_ne_nil b t (List.append_eq_nil_iff.1 h.symm).2

theorem EndsInside.append_right (h : EndsInside s u) (v : Bytes) : EndsInside s (u ++ v) := by
  obtain ⟨b, t, rfl⟩ := h
  exact ⟨b, t ++ v, by simp⟩

theorem EndsInside.append_left (h : EndsInside s v) (u : Bytes) : EndsInside (u ++ s) (u ++ v) := by
  obtain ⟨b, t, rfl⟩ := h
  exact ⟨b, t, by simp⟩

/-- Inside of two words one after the other is inside of the first or, behind it, inside of the second. -/
theorem EndsInside.of_append (h : EndsInside s (u ++ v)) :
    EndsInside s u ∨ ∃ s', s = u ++ s' ∧ EndsInside s' v := by
  obtain ⟨b, t, h⟩ := h
  rcases List.append_eq_append_iff.1 h with ⟨s', rfl, hv⟩ | ⟨_ | ⟨b', t'⟩, rfl, ht⟩
  · exact .inr ⟨s', rfl, b, t, hv⟩
  · exact .inr ⟨[], by simp, b, t, by simpa using ht.symm⟩
  · exact .inl ⟨b', t', rfl⟩

theorem toU24_lt (a b c : UInt8) : toU24 a b c < 0x1000000 := by
  have ha := a.toNat_lt
  have hb := b.toNat_lt
  have hc := c.toNat_lt
  unfold toU24
  omega

theorem ofU24_toU24 (a b c : UInt8) : ofU24 (toU24 a b c) = [a, b, c] := by
  have ha := a.toNat_lt
  have hb := b.toNat_lt
  have hc := c.toNat_lt
  simp only [ofU24, toU24, List.cons.injEq, and_true]
  refine ⟨?_, ?_, ?_⟩ <;> refine UInt8.toNat_inj.1 ?_ <;> rw [UInt8.toNat_ofNat'] <;> omega

theorem ofU32_toU32 (a b c d : UInt8) : ofU32 (toU32 a b c d) = [a, b, c, d] := by
  have ha := a.toNat_lt
  have hb := b.toNat_lt
  have hc := c.toNat_lt
  have hd := d.toNat_lt
  have hn : (toU32 a b c d).toNat = 16777216 * a.toNat + 65536 * b.toNat + 256 * c.toNat + d.toNat :=
    UInt32.toNat_ofNat_of_lt' (by simp only [UInt32.size]; omega)
  simp only [ofU32, hn, List.cons.injEq, and_true]
  refine ⟨?_, ?_, ?_, ?_⟩ <;> refine UInt8.toNat_inj.1 ?_ <;> rw [UInt8.toNat_ofNat'] <;> omega

theorem toNat_ofNat_toNat (b : UInt8) : (Char.ofNat b.toNat).toNat = b.toNat := by
  have hb := b.toNat_lt
  have hvalid : b.toNat.isValidChar := .inl (by omega)
  rw [Char.toNat_ofNat, if_pos hvalid]

theorem ofText_toText (bs : Bytes) : ofText (toText bs) = bs := by
  simp [ofText, toText, Function.comp_def, toNat_ofNat_toNat]

theorem isLine_toText (bs : Bytes) (h : ∀ b ∈ bs, (b != lineEnd) = true) : IsLine (toText bs) := by
  intro c hc
  obtain ⟨b, hb, rfl⟩ : ∃ b ∈ bs, Char.ofNat b.toNat = c := by simpa [toText] using hc
  rw [toNat_ofNat_toNat]
  exact ⟨b.toNat_lt, fun he => bne_iff_ne.1 (h b hb) (UInt8.toNat_inj.1 he)⟩

end Bytes

namespace ByteReader
open Bytes

variable {α β : Type} {p : ByteReader α} {f : α → ByteReader β} {a : α} {b : β} {s u v w : Bytes}

/-- That a reader runs out of bytes. -/
def Starves (p : ByteReader α) (s : Bytes) : Prop :=
  ∃ needed remaining, p.run s = .error (.endOfData needed remaining)

theorem Starves.bind (h : p.Starves s) (f : α → ByteReader β) : (p >>= f).Starves s := by
  obtain ⟨needed, remaining, h⟩ := h
  exact ⟨needed, remaining, Reader.run_bind_of_error h⟩

theorem Starves.of_bind {r : Bytes} (h : p.run s = .ok (a, r)) (hf : (f a).Starves r) :
    (p >>= f).Starves s := by
  obtain ⟨needed, remaining, hf⟩ := hf
  exact ⟨needed, remaining, (Reader.run_bind_of_ok h).trans hf⟩

/-! ### One word -/

/-- That a reader takes a word off the front of whatever starts with it, and runs out of bytes in anything
less. -/
structure Takes (p : ByteReader α) (w : Bytes) (a : α) : Prop where
  run : ∀ r, p.run (w ++ r) = .ok (a, r)
  starves : ∀ s, EndsInside s w → p.Starves s

namespace Takes

theorem pure (a : α) : Takes (Pure.pure a) [] a := ⟨fun _ => rfl, fun _ h => absurd h EndsInside.nil_right⟩

theorem bind (hp : Takes p u a) (hf : Takes (f a) v b) : Takes (p >>= f) (u ++ v) b where
  run r := by rw [List.append_assoc, Reader.run_bind_of_ok (hp.run _), hf.run]
  starves s h := by
    rcases h.of_append with hu | ⟨t, rfl, hv⟩
    · exact (hp.starves s hu).bind f
    · exact .of_bind (hp.run t) (hf.starves t hv)

/-- The last part of a reader that only puts together what was read. -/
theorem bind_pure (hp : Takes p w a) (g : α → β) : Takes (p >>= fun a => Pure.pure (g a)) w (g a) := by
  have h := hp.bind (f := fun a => Pure.pure (g a)) (pure (g a))
  rwa [List.append_nil] at h

theorem map (hp : Takes p w a) (g : α → β) : Takes (g <$> p) w (g a) := hp.bind_pure g

theorem replicate {enc : α → Bytes} {as : List α} {n : Nat} (hn : n = as.length)
    (h : ∀ a ∈ as, Takes p (enc a) a) : Takes (p.replicate n) (as.flatMap enc) as := by
  subst hn
  induction as with
  | nil => exact pure []
  | cons a as ih =>
    have hmore := (h a List.mem_cons_self).bind (f := fun a => do Pure.pure (a :: (← p.replicate as.length)))
      ((ih fun a ha => h a (List.mem_cons_of_mem _ ha)).bind_pure (a :: ·))
    rw [← List.flatMap_cons] at hmore
    exact ⟨fun r => (Reader.run_replicate_succ p _ _).trans (hmore.run r), fun s hs => by
      obtain ⟨needed, remaining, he⟩ := hmore.starves s hs
      exact ⟨needed, remaining, (Reader.run_replicate_succ p _ _).trans he⟩⟩

end Takes

/-! ### All words -/

/-- That a reader takes the words that a language has for what it answers, and that nothing else goes wrong
than that the bytes end inside of a word. -/
structure Recognizes (p : ByteReader α) (L : α → Bytes → Prop) : Prop where
  inhabited : ∃ a w, L a w
  run : ∀ {a w}, L a w → ∀ r, p.run (w ++ r) = .ok (a, r)
  word : ∀ {s a r}, p.run s = .ok (a, r) → ∃ w, L a w ∧ s = w ++ r
  cutOff : ∀ {s e}, p.run s = .error e → p.Starves s ∧ ∃ a w, L a w ∧ EndsInside s w

namespace Recognizes
variable {L : α → Bytes → Prop} {M : α → β → Bytes → Prop}

theorem takes (hp : Recognizes p L) (h : L a w) : Takes p w a where
  run := hp.run h
  starves s hs := by
    obtain ⟨c, t, rfl⟩ := hs
    cases hrun : p.run s with
    | error e => exact (hp.cutOff hrun).1
    | ok x =>
      -- a word that ends earlier would leave bytes of `w` behind
      obtain ⟨u, hu, rfl⟩ := hp.word hrun
      have hshort := hp.run hu (x.2 ++ c :: t)
      have hlong := hp.run h []
      rw [List.append_nil, List.append_assoc, hshort] at hlong
      simp at hlong

theorem run_eq_ok_iff (hp : Recognizes p L) {r : Bytes} : p.run s = .ok (a, r) ↔ ∃ w, L a w ∧ s = w ++ r := by
  constructor
  · exact hp.word
  · rintro ⟨w, hw, rfl⟩
    exact hp.run hw r

theorem of_iff {L' : α → Bytes → Prop} (hp : Recognizes p L) (h : ∀ a w, L a w ↔ L' a w) :
    Recognizes p L' := by
  rwa [show L' = L from funext₂ fun a w => propext (h a w).symm]

theorem pure (a : α) : Recognizes (Pure.pure a) fun b w => b = a ∧ w = [] where
  inhabited := ⟨a, [], rfl, rfl⟩
  run := by
    rintro b w ⟨rfl, rfl⟩ r
    rfl
  word := by
    rintro s b r ⟨⟩
    exact ⟨[], ⟨rfl, rfl⟩, rfl⟩
  cutOff h := nomatch h

theorem bind (hp : Recognizes p L) (hf : ∀ a, Recognizes (f a) (M a)) :
    Recognizes (p >>= f) fun b w => ∃ a u v, L a u ∧ M a b v ∧ w = u ++ v where
  inhabited := by
    obtain ⟨a, u, hu⟩ := hp.inhabited
    obtain ⟨b, v, hv⟩ := (hf a).inhabited
    exact ⟨b, u ++ v, a, u, v, hu, hv, rfl⟩
  run := by
    rintro b w ⟨a, u, v, hu, hv, rfl⟩ r
    rw [List.append_assoc, Reader.run_bind_of_ok (hp.run hu _), (hf a).run hv]
  word h := by
    obtain ⟨a, t, hpa, hfa⟩ := Reader.run_bind_eq_ok.1 h
    obtain ⟨u, hu, rfl⟩ := hp.word hpa
    obtain ⟨v, hv, rfl⟩ := (hf a).word hfa
    exact ⟨u ++ v, ⟨a, u, v, hu, hv, rfl⟩, (List.append_assoc ..).symm⟩
  cutOff {s e} h := by
    cases hrun : p.run s with
    | error e' =>
      obtain ⟨hstarves, a, u, hu, hinside⟩ := hp.cutOff hrun
      obtain ⟨b, v, hv⟩ := (hf a).inhabited
      exact ⟨hstarves.bind f, b, u ++ v, ⟨a, u, v, hu, hv, rfl⟩, hinside.append_right v⟩
    | ok x =>
      rw [Reader.run_bind_of_ok hrun] at h
      obtain ⟨hstarves, b, v, hv, hinside⟩ := (hf x.1).cutOff h
      obtain ⟨u, hu, rfl⟩ := hp.word hrun
      exact ⟨.of_bind hrun hstarves, b, u ++ v, ⟨x.1, u, v, hu, hv, rfl⟩, hinside.append_left u⟩

theorem map (hp : Recognizes p L) (g : α → β) : Recognizes (g <$> p) fun b w => ∃ a, L a w ∧ b = g a := by
  refine (hp.bind (f := fun a => Pure.pure (g a)) fun a => pure (g a)).of_iff fun b w => ⟨?_, ?_⟩
  · rintro ⟨a, u, v, hu, ⟨rfl, rfl⟩, rfl⟩
    exact ⟨a, by rwa [List.append_nil], rfl⟩
  · rintro ⟨a, hw, rfl⟩
    exact ⟨a, w, [], hw, ⟨rfl, rfl⟩, (List.append_nil w).symm⟩

theorem congr_run {q : ByteReader α} (hp : Recognizes p L) (h : ∀ s, q.run s = p.run s) : Recognizes q L where
  inhabited := hp.inhabited
  run hw r := (h _).trans (hp.run hw r)
  word hq := hp.word ((h _).symm.trans hq)
  cutOff {s e} hq := by
    obtain ⟨⟨needed, remaining, hstarves⟩, hinside⟩ := hp.cutOff ((h s).symm.trans hq)
    exact ⟨⟨needed, remaining, (h s).trans hstarves⟩, hinside⟩

theorem bind_map {γ : Type} {M : γ → Bytes → Prop} (g : β → γ) (h : Recognizes (g <$> (p >>= f)) M) :
    Recognizes (p >>= fun a => g <$> f a) M :=
  h.congr_run fun s => by
    rw [Reader.run_map, Reader.run_bind, Reader.run_bind]
    cases p.run s <;> rfl

/-- A row of words, each the written form `enc` of a value that is `Valid`. -/
theorem replicate {Valid : α → Prop} {enc : α → Bytes} (hp : Recognizes p fun a w => Valid a ∧ w = enc a)
    (n : Nat) : Recognizes (p.replicate n) fun as w =>
      as.length = n ∧ (∀ a ∈ as, Valid a) ∧ w = as.flatMap enc := by
  induction n with
  | zero =>
    refine (pure []).of_iff fun as w => ⟨?_, ?_⟩
    · rintro ⟨rfl, rfl⟩
      exact ⟨rfl, nofun, rfl⟩
    · rintro ⟨hlength, -, rfl⟩
      obtain rfl := List.length_eq_zero_iff.1 hlength
      exact ⟨rfl, rfl⟩
  | succ n ih =>
    refine ((hp.bind fun a => ih.map (a :: ·)).of_iff fun as w => ⟨?_, ?_⟩).congr_run
      (Reader.run_replicate_succ p n)
    · rintro ⟨a, u, v, ⟨ha, rfl⟩, ⟨as, ⟨rfl, has, rfl⟩, rfl⟩, rfl⟩
      exact ⟨rfl, List.forall_mem_cons.2 ⟨ha, has⟩, List.flatMap_cons.symm⟩
    · rintro ⟨hlength, hvalid, rfl⟩
      obtain ⟨a, as, rfl⟩ := List.exists_cons_of_length_eq_add_one hlength
      obtain ⟨ha, has⟩ := List.forall_mem_cons.1 hvalid
      exact ⟨a, enc a, as.flatMap enc, ⟨ha, rfl⟩, ⟨as, ⟨Nat.succ.inj hlength, has, rfl⟩, rfl⟩, List.flatMap_cons⟩

end Recognizes

/-! ### Bytes, words and texts -/

theorem recognizes_byte : Recognizes byte fun b w => w = [b] where
  inhabited := ⟨0, [0], rfl⟩
  run := by
    rintro b w rfl r
    rfl
  word {s b r} h := by
    match s, h with
    | c :: t, h =>
      cases h
      exact ⟨[b], rfl, rfl⟩
  cutOff {s e} h := by
    match s, h with
    | [], h => exact ⟨⟨1, 0, rfl⟩, 0, [0], rfl, 0, [], rfl⟩

theorem recognizes_u16 : Recognizes u16 fun n w => w = ofU16 n where
  inhabited := ⟨0, ofU16 0, rfl⟩
  run := by
    rintro n w rfl r
    exact run_u16_append n r
  word h := ⟨_, rfl, eq_of_run_u16 h⟩
  cutOff {s e} h := by
    match s, h with
    | [], h => exact ⟨⟨2, 0, rfl⟩, 0, ofU16 0, rfl, 0, [0], rfl⟩
    | [a], h => exact ⟨⟨2, 1, rfl⟩, toU16 a 0, ofU16 (toU16 a 0), rfl, 0, [], ofU16_toU16 a 0⟩

theorem recognizes_u24 : Recognizes u24 fun n w => n < 0x1000000 ∧ w = ofU24 n where
  inhabited := ⟨0, ofU24 0, by decide, rfl⟩
  run := by
    rintro n w ⟨hn, rfl⟩ r
    exact run_u24_append hn r
  word {s n r} h := by
    match s, h with
    | a :: b :: c :: t, h =>
      cases h
      exact ⟨_, ⟨toU24_lt a b c, rfl⟩, by rw [ofU24_toU24]; rfl⟩
  cutOff {s e} h := by
    match s, h with
    | [], h => exact ⟨⟨3, 0, rfl⟩, 0, ofU24 0, ⟨by decide, rfl⟩, 0, [0, 0], rfl⟩
    | [a], h => exact ⟨⟨3, 1, rfl⟩, toU24 a 0 0, _, ⟨toU24_lt a 0 0, rfl⟩, 0, [0], ofU24_toU24 a 0 0⟩
    | [a, b], h => exact ⟨⟨3, 2, rfl⟩, toU24 a b 0, _, ⟨toU24_lt a b 0, rfl⟩, 0, [], ofU24_toU24 a b 0⟩

theorem recognizes_u32 : Recognizes u32 fun n w => w = ofU32 n where
  inhabited := ⟨0, ofU32 0, rfl⟩
  run := by
    rintro n w rfl r
    exact run_u32_append n r
  word {s n r} h := by
    match s, h with
    | a :: b :: c :: d :: t, h =>
      cases h
      exact ⟨_, rfl, by rw [ofU32_toU32]; rfl⟩
  cutOff {s e} h := by
    match s, h with
    | [], h => exact ⟨⟨4, 0, rfl⟩, 0, ofU32 0, rfl, 0, [0, 0, 0], rfl⟩
    | [a], h => exact ⟨⟨4, 1, rfl⟩, toU32 a 0 0 0, _, rfl, 0, [0, 0], ofU32_toU32 a 0 0 0⟩
    | [a, b], h => exact ⟨⟨4, 2, rfl⟩, toU32 a b 0 0, _, rfl, 0, [0], ofU32_toU32 a b 0 0⟩
    | [a, b, c], h => exact ⟨⟨4, 3, rfl⟩, toU32 a b c 0, _, rfl, 0, [], ofU32_toU32 a b c 0⟩

theorem recognizes_i8 : Recognizes i8 fun n w => w = [n.toUInt8] := by
  refine (recognizes_byte.map UInt8.toInt8).of_iff fun n w => ⟨?_, ?_⟩
  · rintro ⟨b, rfl, rfl⟩
    rfl
  · rintro rfl
    exact ⟨n.toUInt8, rfl, rfl⟩

theorem recognizes_i16 : Recognizes i16 fun n w => w = ofU16 n.toUInt16 := by
  refine (recognizes_u16.map UInt16.toInt16).of_iff fun n w => ⟨?_, ?_⟩
  · rintro ⟨b, rfl, rfl⟩
    rfl
  · rintro rfl
    exact ⟨n.toUInt16, rfl, rfl⟩

theorem recognizes_text : Recognizes text fun t w => IsLine t ∧ w = ofLine t where
  inhabited := ⟨"", ofLine "", by simp [IsLine], rfl⟩
  run := by
    rintro t w ⟨ht, rfl⟩ r
    exact run_text_append ht r
  word {s t r} h := by
    have hsplit := List.takeWhile_append_dropWhile (p := (· != lineEnd)) (l := s)
    simp only [text] at h
    split at h
    · next c r' hd =>
      cases h
      obtain rfl : c = lineEnd := by
        have hhead := List.head?_dropWhile_not (· != lineEnd) s
        rw [hd] at hhead
        simpa using hhead
      refine ⟨_, ⟨isLine_toText _ fun b hb => List.mem_takeWhile_imp (p := (· != lineEnd)) hb, rfl⟩, ?_⟩
      rw [ofLine, ofText_toText, List.append_assoc, List.singleton_append, ← hd, hsplit]
    · cases h
  cutOff {s e} h := by
    simp only [text] at h
    split at h
    · cases h
    · next hd =>
      have hno : ∀ b ∈ s, (b != lineEnd) = true := List.dropWhile_eq_nil_iff.1 hd
      refine ⟨⟨s.length + 1, s.length, by simp only [text, hd]⟩, toText s, ofLine (toText s),
        ⟨isLine_toText s hno, rfl⟩, lineEnd, [], ?_⟩
      rw [ofLine, ofText_toText]

end ByteReader

end AssetCache
