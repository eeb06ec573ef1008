import Mathlib
import AssetCache.OpStream.Grammar
import AssetCache.Proofs.ReaderWords

/-!
# Records are read as their grammar says

`OpTable.Reads t Spells`: the payload readers of the table `t` take the spellings of its operations, and nothing
else. From it, the next step of a row of operations follows from what stands at its front (`Reads.parses_zero` and
the lemmas after it), so every byte string has one parse, and the reader answers as its ending says:
`Reads.followsGrammar`.
-/

namespace AssetCache
open Bytes ByteReader

variable {Op α β γ : Type}

theorem Ending.Answers.map {e : Ending} {kind : OpCodeKind} {a : α} {p : ByteReader α} {d : Bytes}
    (h : e.Answers kind a (p.run d)) (f : α → β) : e.Answers kind (f a) ((f <$> p).run d) := by
  cases e with
  | closed rest =>
    show (f <$> p).run d = _
    rw [Reader.run_map, show p.run d = _ from h]
  | exhausted =>
    show (f <$> p).run d = _
    rw [Reader.run_map, show p.run d = _ from h]
  | unknown code =>
    show (f <$> p).run d = _
    rw [Reader.run_map, show p.run d = _ from h]
  | cutOff =>
    obtain ⟨needed, remaining, h⟩ := h
    exact ⟨needed, remaining, by rw [Reader.run_map, h]⟩

/-- That a reader follows a grammar: every byte string has one parse, and the reader answers as its ending says. -/
structure FollowsGrammar (Spells : Op → UInt8 → Bytes → Prop) (kind : OpCodeKind) (make : List Op → α)
    (p : ByteReader α) : Prop where
  parse : ∀ d, ∃! x : List Op × Ending, Parses Spells d x.1 x.2
  answer : ∀ {d ops e}, Parses Spells d ops e → e.Answers kind (make ops) (p.run d)

/-- That all that a reader takes is spelled with one op-code. -/
def ReadsCode (Spells : Op → UInt8 → Bytes → Prop) (code : UInt8) (p : ByteReader Op) : Prop :=
  ∃ L : Op → Bytes → Prop, Recognizes p L ∧ ∀ op w, L op w → Spells op code w

namespace OpTable

/-- That the readers of a table take the spellings of its operations, and nothing else. -/
structure Reads (t : OpTable Op) (Spells : Op → UInt8 → Bytes → Prop) : Prop where
  zero : t.payload? 0 = none
  takes : ∀ {op code w}, Spells op code w → ∃ p, t.payload? code = some p ∧ Takes p w op
  reads : ∀ {code p}, t.payload? code = some p → ReadsCode Spells code p

namespace Reads
variable {t : OpTable Op} {Spells : Op → UInt8 → Bytes → Prop} {p : ByteReader Op}
  {code : UInt8} {op : Op} {w s r : Bytes} {ops : List Op} {e : Ending}

theorem recognizes (h : t.Reads Spells) (hp : t.payload? code = some p) :
    Recognizes p fun op w => Spells op code w := by
  obtain ⟨L, hreader, hspells⟩ := h.reads hp
  refine ⟨?inhabited, ?run, ?word, ?cutOff⟩
  case inhabited =>
    obtain ⟨op, w, hw⟩ := hreader.inhabited
    exact ⟨op, w, hspells op w hw⟩
  case run =>
    intro op w hw r
    obtain ⟨q, hq, htakes⟩ := h.takes hw
    obtain rfl : p = q := Option.some.inj (hp.symm.trans hq)
    exact htakes.run r
  case word =>
    intro s op r hrun
    obtain ⟨w, hw, hs⟩ := hreader.word hrun
    exact ⟨w, hspells op w hw, hs⟩
  case cutOff =>
    intro s err hrun
    obtain ⟨hstarves, op, w, hw, hinside⟩ := hreader.cutOff hrun
    exact ⟨hstarves, op, w, hspells op w hw, hinside⟩

/-- What is spelled with an op-code is what the payload reader of the op-code takes. -/
theorem of_spells (h : t.Reads Spells) {L : Op → Bytes → Prop} (hw : Spells op code w)
    (hp : t.payload? code = some p) (hread : Recognizes p L) : L op w := by
  obtain ⟨q, hq, htakes⟩ := h.takes hw
  obtain rfl : p = q := Option.some.inj (hp.symm.trans hq)
  obtain ⟨w', hw', heq⟩ := hread.word (htakes.run [])
  rw [List.append_nil, List.append_nil] at heq
  exact heq ▸ hw'

theorem not_spells (h : t.Reads Spells) (hnone : t.payload? code = none) (op : Op) (w : Bytes) :
    ¬ Spells op code w := by
  intro hw
  obtain ⟨p, hp, -⟩ := h.takes hw
  rw [hnone] at hp
  nomatch hp

/-! ### The step at the front -/

theorem parses_nil : Parses Spells [] ops e ↔ ops = [] ∧ e = .exhausted := by
  constructor
  · rintro ⟨⟩
    exact ⟨rfl, rfl⟩
  · rintro ⟨rfl, rfl⟩
    exact .exhausted

theorem parses_zero (h : t.Reads Spells) : Parses Spells (0 :: s) ops e ↔ ops = [] ∧ e = .closed s := by
  constructor
  · intro hparse
    cases hparse with
    | closed => exact ⟨rfl, rfl⟩
    | unknown hne => exact absurd rfl hne
    | cutOff hw => exact absurd hw (h.not_spells h.zero _ _)
    | op hw => exact absurd hw (h.not_spells h.zero _ _)
  · rintro ⟨rfl, rfl⟩
    exact .closed

theorem parses_unknown (h : t.Reads Spells) (hne : code ≠ 0) (hnone : t.payload? code = none) :
    Parses Spells (code :: s) ops e ↔ ops = [] ∧ e = .unknown code := by
  constructor
  · intro hparse
    cases hparse with
    | closed => exact absurd rfl hne
    | unknown => exact ⟨rfl, rfl⟩
    | cutOff hw => exact absurd hw (h.not_spells hnone _ _)
    | op hw => exact absurd hw (h.not_spells hnone _ _)
  · rintro ⟨rfl, rfl⟩
    exact .unknown hne (h.not_spells hnone)

theorem ne_zero (h : t.Reads Spells) (hp : t.payload? code = some p) : code ≠ 0 := by
  rintro rfl
  rw [h.zero] at hp
  nomatch hp

theorem parses_cutOff (h : t.Reads Spells) (hp : t.payload? code = some p) (hs : p.Starves s) :
    Parses Spells (code :: s) ops e ↔ ops = [] ∧ e = .cutOff := by
  obtain ⟨needed, remaining, hrun⟩ := hs
  have hreader := h.recognizes hp
  constructor
  · intro hparse
    cases hparse with
    | closed => exact absurd rfl (h.ne_zero hp)
    | unknown _ hno =>
      obtain ⟨op, w, hw⟩ := hreader.inhabited
      exact absurd hw (hno op w)
    | cutOff => exact ⟨rfl, rfl⟩
    | op hw =>
      rw [hreader.run hw] at hrun
      nomatch hrun
  · rintro ⟨rfl, rfl⟩
    obtain ⟨-, op, w, hw, b, missing, rfl⟩ := hreader.cutOff hrun
    exact .cutOff hw

theorem parses_op (h : t.Reads Spells) (hp : t.payload? code = some p) (hrun : p.run s = .ok (op, r)) :
    Parses Spells (code :: s) ops e ↔ ∃ ops', ops = op :: ops' ∧ Parses Spells r ops' e := by
  have hreader := h.recognizes hp
  constructor
  · intro hparse
    cases hparse with
    | closed => exact absurd rfl (h.ne_zero hp)
    | unknown _ hno =>
      obtain ⟨op, w, hw⟩ := hreader.inhabited
      exact absurd hw (hno op w)
    | @cutOff _ b _ _ missing hw =>
      obtain ⟨needed, remaining, hstarves⟩ := (hreader.takes hw).starves s ⟨b, missing, rfl⟩
      rw [hstarves] at hrun
      nomatch hrun
    | op hw hrest =>
      rw [hreader.run hw] at hrun
      cases hrun
      exact ⟨_, rfl, hrest⟩
  · rintro ⟨ops', rfl, hrest⟩
    obtain ⟨w, hw, rfl⟩ := hreader.word hrun
    exact .op hw hrest

/-! ### All steps -/

/-- Every byte string is one row of operations, and ends in one way. -/
theorem existsUnique_parse (h : t.Reads Spells) (d : Bytes) :
    ∃! x : List Op × Ending, Parses Spells d x.1 x.2 := by
  have stops {d : Bytes} {e : Ending} (hd : ∀ ops e', Parses Spells d ops e' ↔ ops = [] ∧ e' = e) :
      ∃! x : List Op × Ending, Parses Spells d x.1 x.2 :=
    ⟨([], e), (hd _ _).2 ⟨rfl, rfl⟩, fun x hx => Prod.ext ((hd _ _).1 hx).1 ((hd _ _).1 hx).2⟩
  -- what a payload reader leaves is shorter than the record, but no fixed part of it
  induction hn : d.length using Nat.strong_induction_on generalizing d with
  | _ n ih =>
    cases d with
    | nil => exact stops fun _ _ => parses_nil
    | cons code s =>
      by_cases hzero : code = 0
      · subst hzero
        exact stops fun _ _ => h.parses_zero
      cases hp : t.payload? code with
      | none => exact stops fun _ _ => h.parses_unknown hzero hp
      | some p =>
        cases hrun : p.run s with
        | error err => exact stops fun _ _ => h.parses_cutOff hp ((h.recognizes hp).cutOff hrun).1
        | ok x =>
          have hshort : x.2.length < n := by
            have hlength := Reader.length_le hrun
            rw [← hn, List.length_cons]
            omega
          obtain ⟨⟨ops, e⟩, hparse, hunique⟩ := ih _ hshort x.2 rfl
          refine ⟨(x.1 :: ops, e), (h.parses_op hp hrun).2 ⟨ops, rfl, hparse⟩, ?_⟩
          rintro ⟨_, e'⟩ hparse'
          obtain ⟨ops', rfl, hparse'⟩ := (h.parses_op hp hrun).1 hparse'
          cases hunique (ops', e') hparse'
          rfl

theorem run_more_of_none {acc : List Op} (hne : code ≠ 0) (hnone : t.payload? code = none) :
    (t.more acc).run (code :: s) = .error (.unknownOpCode t.kind code) := by
  rw [more, Reader.run_bind_of_ok (Reader.run_atEnd _), if_neg (by simp), Reader.run_bind_of_ok (r := s) rfl,
    if_neg hne, hnone]
  rfl

theorem run_more_of_some {acc : List Op} (hne : code ≠ 0) (hp : t.payload? code = some p) :
    (t.more acc).run (code :: s) = ((fun op => .inl (op :: acc)) <$> p).run s := by
  rw [more, Reader.run_bind_of_ok (Reader.run_atEnd _), if_neg (by simp), Reader.run_bind_of_ok (r := s) rfl,
    if_neg hne, hp]

theorem answers (h : t.Reads Spells) {d : Bytes} (hparse : Parses Spells d ops e) :
    e.Answers t.kind ops (t.read.run d) := by
  -- the operations before the ones still to be read, the last one first
  have hloop : ∀ acc, e.Answers t.kind (acc.reverse ++ ops)
      ((Reader.loop t.more t.progress_more acc).run d) := by
    induction hparse with
    | closed =>
      intro acc
      rw [Reader.run_loop, List.append_nil]
      rfl
    | exhausted =>
      intro acc
      rw [Reader.run_loop, List.append_nil]
      rfl
    | unknown hne hno =>
      intro acc
      have hnone : t.payload? _ = none := Option.eq_none_iff_forall_ne_some.2 fun p hp => by
        obtain ⟨op, w, hw⟩ := (h.recognizes hp).inhabited
        exact hno op w hw
      rw [Reader.run_loop, run_more_of_none hne hnone]
      rfl
    | @cutOff _ b _ s missing hw =>
      intro acc
      obtain ⟨p, hp, htakes⟩ := h.takes hw
      obtain ⟨needed, remaining, hstarves⟩ := htakes.starves s ⟨b, missing, rfl⟩
      rw [Reader.run_loop, run_more_of_some (h.ne_zero hp) hp, Reader.run_map, hstarves]
      exact ⟨needed, remaining, rfl⟩
    | @op _ op _ _ _ _ hw _ ih =>
      intro acc
      obtain ⟨p, hp, htakes⟩ := h.takes hw
      rw [Reader.run_loop, run_more_of_some (h.ne_zero hp) hp, Reader.run_map, htakes.run]
      have hrest := ih (op :: acc)
      rwa [List.reverse_cons, List.append_assoc] at hrest
  exact hloop []

theorem followsGrammar (h : t.Reads Spells) (make : List Op → α) :
    FollowsGrammar Spells t.kind make (make <$> t.read) where
  parse := h.existsUnique_parse
  answer hparse := (h.answers hparse).map make

end Reads

end OpTable

/-! ### Payloads -/

namespace ByteReader
variable {p : ByteReader α} {q : ByteReader β}

theorem recognizes_pair {enc : α → Bytes} {enc' : β → Bytes} (hp : Recognizes p fun a w => w = enc a)
    (hq : Recognizes q fun b w => w = enc' b) (f : α → β → γ) :
    Recognizes (do pure (f (← p) (← q))) fun c w => ∃ x : α × β, w = enc x.1 ++ enc' x.2 ∧ c = f x.1 x.2 := by
  refine (hp.bind fun a => hq.map (f a)).of_iff fun c w => ⟨?_, ?_⟩
  · rintro ⟨a, _, _, rfl, ⟨b, rfl, rfl⟩, rfl⟩
    exact ⟨(a, b), rfl, rfl⟩
  · rintro ⟨x, rfl, rfl⟩
    exact ⟨x.1, _, _, rfl, ⟨x.2, rfl, rfl⟩, rfl⟩

theorem recognizes_readAction : Recognizes readAction SpellsAction := by
  refine (recognizes_text.map _).of_iff fun o w => ⟨?_, ?_⟩
  · rintro ⟨t, ⟨ht, rfl⟩, rfl⟩
    split
    · next hidden => exact ⟨t, ht, hidden, rfl⟩
    · next shown => exact ⟨ht, shown, rfl⟩
  · intro h
    cases o with
    | none =>
      obtain ⟨t, ht, hidden, rfl⟩ := h
      exact ⟨t, ⟨ht, rfl⟩, (if_pos hidden).symm⟩
    | some t =>
      obtain ⟨ht, shown, rfl⟩ := h
      exact ⟨t, ⟨ht, rfl⟩, (if_neg shown).symm⟩

theorem recognizes_readOptional : Recognizes readOptional fun o w => o ≠ some 0xFFFF ∧ w = ofOptional o := by
  refine (recognizes_u16.map _).of_iff fun o w => ⟨?_, ?_⟩
  · rintro ⟨n, rfl, rfl⟩
    split
    · next hn => exact ⟨nofun, by rw [hn]; rfl⟩
    · next hn => exact ⟨fun h => hn (Option.some.inj h), rfl⟩
  · rintro ⟨hne, rfl⟩
    cases o with
    | none => exact ⟨0xFFFF, rfl, rfl⟩
    | some n => exact ⟨n, rfl, (if_neg fun h => hne (congrArg some h)).symm⟩

/-- As many words as a byte says, and some more. -/
theorem recognizes_counted {Valid : α → Prop} {enc : α → Bytes}
    (hp : Recognizes p fun a w => Valid a ∧ w = enc a) (extra : ℕ) :
    Recognizes (do let count ← byte; p.replicate (count.toNat + extra)) fun as w =>
      (∀ a ∈ as, Valid a) ∧ ∃ count : UInt8, as.length = count.toNat + extra ∧ w = count :: as.flatMap enc := by
  refine (recognizes_byte.bind fun count => hp.replicate (count.toNat + extra)).of_iff fun as w => ⟨?_, ?_⟩
  · rintro ⟨count, _, _, rfl, ⟨hlength, hvalid, rfl⟩, rfl⟩
    exact ⟨hvalid, count, hlength, rfl⟩
  · rintro ⟨hvalid, count, hlength, rfl⟩
    exact ⟨count, _, _, rfl, ⟨hlength, hvalid, rfl⟩, rfl⟩

theorem exists_count_iff {enc : α → Bytes} {as : List α} {w : Bytes} :
    (∃ count : UInt8, as.length = count.toNat + 0 ∧ w = count :: as.flatMap enc) ↔
      as.length < 256 ∧ w = ofCounted enc as := by
  constructor
  · rintro ⟨count, hlength, rfl⟩
    have hlt := count.toNat_lt
    exact ⟨by omega, by rw [ofCounted, hlength, Nat.add_zero, UInt8.ofNat_toNat]⟩
  · rintro ⟨hlength, rfl⟩
    exact ⟨UInt8.ofNat as.length, (UInt8.toNat_ofNat_of_lt' hlength).symm, rfl⟩

theorem recognizes_readRecolors :
    Recognizes readRecolors fun rs w => rs.length < 256 ∧ w = ofCounted Recolor.encode rs := by
  have hrecolor : Recognizes (do pure ⟨← u16, ← u16⟩ : ByteReader Recolor) fun r w => True ∧ w = r.encode := by
    refine (recognizes_pair recognizes_u16 recognizes_u16 Recolor.mk).of_iff fun r w => ⟨?_, ?_⟩
    · rintro ⟨x, rfl, rfl⟩
      exact ⟨trivial, rfl⟩
    · rintro ⟨-, rfl⟩
      exact ⟨(r.source, r.target), rfl, rfl⟩
  refine (recognizes_counted hrecolor 0).of_iff fun rs w => ?_
  rw [exists_count_iff]
  exact and_iff_right fun _ _ => trivial

end ByteReader

namespace ReadsCode
variable {Spells : Op → UInt8 → Bytes → Prop} {code : UInt8}

theorem map {p : ByteReader β} {L : β → Bytes → Prop} (hp : Recognizes p L) {f : β → Op}
    (spells : ∀ b w, L b w → Spells (f b) code w) : ReadsCode Spells code (f <$> p) := by
  refine ⟨_, hp.map f, ?_⟩
  rintro _ w ⟨b, hb, rfl⟩
  exact spells b w hb

/-- Readers for which a value has one spelling. -/
theorem word {p : ByteReader β} {enc : β → Bytes} {f : β → Op} (hp : Recognizes p fun b w => w = enc b)
    (spells : ∀ b, Spells (f b) code (enc b)) : ReadsCode Spells code (f <$> p) := by
  refine .map hp ?_
  rintro b w rfl
  exact spells b

theorem pair {p : ByteReader α} {q : ByteReader β} {enc : α → Bytes} {enc' : β → Bytes} {f : α → β → Op}
    (hp : Recognizes p fun a w => w = enc a) (hq : Recognizes q fun b w => w = enc' b)
    (spells : ∀ a b, Spells (f a b) code (enc a ++ enc' b)) :
    ReadsCode Spells code (do pure (f (← p) (← q))) := by
  refine ⟨_, recognizes_pair hp hq f, ?_⟩
  rintro _ w ⟨x, rfl, rfl⟩
  exact spells x.1 x.2

theorem pure {op : Op} (spells : Spells op code []) : ReadsCode Spells code (Pure.pure op) := by
  refine ⟨_, Recognizes.pure op, ?_⟩
  rintro op' w ⟨rfl, rfl⟩
  exact spells

end ReadsCode

end AssetCache
