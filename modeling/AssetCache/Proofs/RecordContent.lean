import Mathlib
import AssetCache.Proofs.ObjectFlags

/-!
# What records are read as

`ReadsRecords` puts both halves together: a reader answers a row of operations as the row ends, and what it makes of a
whole record is told of the operations alone. Main statement: `records_follow_grammar`, for items and for objects.
-/

namespace AssetCache

section Records
variable {Op α : Type} {Spells : Op → UInt8 → Bytes → Prop} {kind : OpCodeKind}

/-- That a reader answers every row of operations as it ends, and makes of a whole record what `Makes` says. -/
structure ReadsRecords (Spells : Op → UInt8 → Bytes → Prop) (kind : OpCodeKind)
    (Makes : WholeRecord Spells → α → Prop) (p : ByteReader α) : Prop where
  parse : ∀ d, ∃! x : List Op × Ending, Parses Spells d x.1 x.2
  whole : ∀ {d ops e}, Parses Spells d ops e → (∃ rest, e = .closed rest) ∨ e = .exhausted →
    ∃ r : WholeRecord Spells, r.bytes = d ∧ r.ops.map (·.op) = ops ∧ r.ending = e
  made : ∀ r : WholeRecord Spells, ∃ a, p.run r.bytes = .ok (a, r.rest) ∧ Makes r a
  unknown : ∀ {d ops code}, Parses Spells d ops (.unknown code) → p.run d = .error (.unknownOpCode kind code)
  cutOff : ∀ {d ops}, Parses Spells d ops .cutOff → ∃ needed remaining, p.run d = .error (.endOfData needed remaining)

theorem FollowsGrammar.readsRecords {make : List Op → α} {p : ByteReader α} (h : FollowsGrammar Spells kind make p)
    {Makes : WholeRecord Spells → α → Prop}
    (made : ∀ r : WholeRecord Spells, ∃ a, p.run r.bytes = .ok (a, r.rest) ∧ Makes r a) :
    ReadsRecords Spells kind Makes p where
  parse := h.parse
  whole := by
    rintro d ops e hparse (⟨rest, rfl⟩ | rfl)
    · exact WholeRecord.exists_of_parses hparse nofun nofun
    · exact WholeRecord.exists_of_parses hparse nofun nofun
  made := made
  unknown hparse := h.answer hparse
  cutOff hparse := h.answer hparse

end Records

/-- Records are accepted exactly by their grammar: every byte string is one row of operations that ends in one way,
and a reader gives a definition exactly where the row ends at op-code 0 or with the bytes. Each part of it is what the
last operation about this part says, or else its default, and the flags of an object are those of which its operations
speak. -/
theorem records_follow_grammar (id : UInt16) :
    ReadsRecords Item.Op.Spells .item (fun r i => i = .ofLatest id (r.latest? fun code => code)) (Item.read id) ∧
    ReadsRecords WorldObject.Op.Spells .object
      (fun r o => WorldObject.Flagged r o.flags ∧
        o = { (WorldObject.Draft.ofLatest id (r.latest? WorldObject.fieldCode)).object with flags := o.flags })
      (WorldObject.read id) := by
  constructor
  · exact (Item.reads_ops.followsGrammar _).readsRecords fun r => ⟨_, Item.run_bytes id r, rfl⟩
  · refine (WorldObject.reads_ops.followsGrammar _).readsRecords fun r => ⟨_, WorldObject.run_bytes id r, ?_, rfl⟩
    exact WorldObject.flagged_finish id r

/-- An item that gives its model twice and hides an action. -/
def modelledTwice : WholeRecord Item.Op.Spells where
  ops := [⟨.name "A", 2, [0x41, 10], rfl, by decide, rfl⟩,
    ⟨.action 0 none, 35, [0x48, 0x69, 0x44, 0x44, 0x65, 0x4E, 10], rfl, "HiDDeN", by decide, by decide +kernel, rfl⟩,
    ⟨.model 7, 1, [0, 7], rfl, rfl⟩, ⟨.model 258, 1, [1, 2], rfl, rfl⟩]
  behind := some [9]

/-- An object with a model for the middle of a tile that is not solid, and nothing said about interactivity. -/
def openCentrepiece : WholeRecord WorldObject.Op.Spells where
  ops := [⟨.models [⟨11, some 10⟩], 1, [1, 0, 11, 10], by decide, .inl ⟨rfl, by decide, rfl⟩⟩,
    ⟨.notSolid, 17, [], rfl, rfl⟩]
  behind := none

/-- Two whole records, of which one has something behind it, and one that has an op-code which no object has. -/
theorem records_follow_grammar_samples :
    (Item.read 5).run [2, 0x41, 10, 35, 0x48, 0x69, 0x44, 0x44, 0x65, 0x4E, 10, 1, 0, 7, 1, 1, 2, 0, 9] =
      .ok ({ id := 5, name := some "A", modelId := 258 }, [9]) ∧
    (∃ o, (WorldObject.read 5).run [1, 1, 0, 11, 10, 17] = .ok (o, []) ∧ o.flags.interactive ∧ ¬ o.flags.solid) ∧
    (WorldObject.read 5).run [77, 0xFF, 0xFF, 0, 5, 1, 0, 9, 0xFF, 0xFF, 74, 250, 1] =
      .error (.unknownOpCode .object 250) := by
  obtain ⟨hitem, hobject⟩ := records_follow_grammar 5
  refine ⟨?_, ?_, ?_⟩
  · obtain ⟨i, hrun, rfl⟩ := hitem.made modelledTwice
    exact hrun
  · obtain ⟨o, hrun, hflags, -⟩ := hobject.made openCentrepiece
    have hcentre : WorldObject.NamesCentrepiece openCentrepiece :=
      ⟨_, _, rfl, rfl, by decide, by decide⟩
    refine ⟨o, hrun, (hflags.derived (by decide)).2 (.inl hcentre), fun hsolid => ?_⟩
    exact (hflags.solid.1 hsolid).1 (by decide)
  · have hchildren : (WorldObject.Op.children none (some 5) [some 9, none]).Spells 77
        [0xFF, 0xFF, 0, 5, 1, 0, 9, 0xFF, 0xFF] := ⟨rfl, nofun, by decide, by simp, 1, rfl, rfl⟩
    have hhollow : WorldObject.Op.hollow.Spells 74 [] := ⟨rfl, rfl⟩
    have hno : ∀ op w, ¬ WorldObject.Op.Spells op 250 w := WorldObject.reads_ops.not_spells (by rfl)
    exact hobject.unknown (.op hchildren (.op hhollow (.unknown (by decide) hno)))

end AssetCache
