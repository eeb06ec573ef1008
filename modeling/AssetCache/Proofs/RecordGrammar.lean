import Mathlib
import AssetCache.Item.Grammar
import AssetCache.WorldObject.Grammar
import AssetCache.Proofs.OpStreams

/-!
# Item and object records

Every operation has a reader that takes its spelling (`takes_of_spells`), and what the reader of an op-code takes is
spelled with this op-code (`reads_of_payload?`). Main statements: `Item.reads_ops` and `WorldObject.reads_ops`, both
tables of op-codes are read as their operations are spelled.
-/

namespace AssetCache
open Bytes ByteReader

namespace Item

theorem takes_of_spells {op : Op} {code : UInt8} {w : Bytes} (h : op.Spells code w) :
    ∃ p, Op.payload? code = some p ∧ Takes p w op := by
  cases op
  case name | description =>
    obtain ⟨rfl, h⟩ := h
    exact ⟨_, rfl, (recognizes_text.takes h).map _⟩
  case stackable | members =>
    obtain ⟨rfl, rfl⟩ := h
    exact ⟨_, rfl, .pure _⟩
  case offsetX | offsetY =>
    obtain ⟨rfl, rfl⟩ := h
    exact ⟨_, rfl, (recognizes_i16.takes rfl).map _⟩
  case value =>
    obtain ⟨rfl, rfl⟩ := h
    exact ⟨_, rfl, (recognizes_u32.takes rfl).map _⟩
  case light | shadow =>
    obtain ⟨rfl, rfl⟩ := h
    exact ⟨_, rfl, (recognizes_i8.takes rfl).map _⟩
  case team =>
    obtain ⟨rfl, rfl⟩ := h
    exact ⟨_, rfl, (recognizes_byte.takes rfl).map _⟩
  case maleModel | femaleModel =>
    obtain ⟨rfl, rfl⟩ := h
    exact ⟨_, rfl, (recognizes_u16.takes rfl).bind ((recognizes_i8.takes rfl).bind_pure _)⟩
  case groundAction slot _ | action slot _ =>
    obtain ⟨rfl, h⟩ := h
    fin_cases slot <;> exact ⟨_, rfl, (recognizes_readAction.takes h).map _⟩
  case recolors =>
    obtain ⟨rfl, h⟩ := h
    exact ⟨_, rfl, (recognizes_readRecolors.takes h).map _⟩
  case maleHead slot _ | femaleHead slot _ =>
    obtain ⟨rfl, rfl⟩ := h
    fin_cases slot <;> exact ⟨_, rfl, (recognizes_u16.takes rfl).map _⟩
  case stackVariant slot _ =>
    obtain ⟨rfl, rfl⟩ := h
    fin_cases slot <;> exact ⟨_, rfl, (recognizes_u16.takes rfl).bind ((recognizes_u16.takes rfl).bind_pure _)⟩
  all_goals
    obtain ⟨rfl, rfl⟩ := h
    exact ⟨_, rfl, (recognizes_u16.takes rfl).map _⟩

/-- The op-codes, kind by kind of their payloads: none, a byte, a signed byte, a word, a signed word, coins, a line, an
action, colour changes, a worn model and a stack variant. -/
theorem code_of_payload? {code : UInt8} {p : ByteReader Op} (h : Op.payload? code = some p) :
    code ∈ [11, 16] ∨ code = 115 ∨ code ∈ [113, 114] ∨
    code ∈ [1, 4, 5, 6, 10, 24, 26, 78, 79, 90, 91, 92, 93, 95, 97, 98, 110, 111, 112] ∨ code ∈ [7, 8] ∨
    code = 12 ∨ code ∈ [2, 3] ∨ code ∈ [30, 31, 32, 33, 34, 35, 36, 37, 38, 39] ∨ code = 40 ∨
    code ∈ [23, 25] ∨ code ∈ [100, 101, 102, 103, 104, 105, 106, 107, 108, 109] := by
  unfold Op.payload? at h
  split at h
  -- only the last case is of an op-code without a payload
  all_goals first | decide | cases h

theorem reads_of_payload? {code : UInt8} {p : ByteReader Op} (h : Op.payload? code = some p) :
    ReadsCode Op.Spells code p := by
  rcases code_of_payload? h with mark | byte | shade | word | offset | coins | line | action | recolors | worn | variant
  · fin_cases mark <;> cases h <;> exact .pure ⟨rfl, rfl⟩
  · subst byte
    cases h
    exact .word recognizes_byte fun _ => ⟨rfl, rfl⟩
  · fin_cases shade <;> cases h <;> exact .word recognizes_i8 fun _ => ⟨rfl, rfl⟩
  · fin_cases word <;> cases h <;> exact .word recognizes_u16 fun _ => ⟨rfl, rfl⟩
  · fin_cases offset <;> cases h <;> exact .word recognizes_i16 fun _ => ⟨rfl, rfl⟩
  · subst coins
    cases h
    exact .word recognizes_u32 fun _ => ⟨rfl, rfl⟩
  · fin_cases line <;> cases h <;> exact .map recognizes_text fun _ _ hline => ⟨rfl, hline⟩
  · fin_cases action <;> cases h <;> exact .map recognizes_readAction fun _ _ haction => ⟨rfl, haction⟩
  · subst recolors
    cases h
    exact .map recognizes_readRecolors fun _ _ hrecolors => ⟨rfl, hrecolors⟩
  · fin_cases worn <;> cases h <;> exact .pair recognizes_u16 recognizes_i8 fun _ _ => ⟨rfl, rfl⟩
  · fin_cases variant <;> cases h <;> exact .pair recognizes_u16 recognizes_u16 fun _ _ => ⟨rfl, rfl⟩

theorem reads_ops : ops.Reads Op.Spells := ⟨rfl, takes_of_spells, reads_of_payload?⟩

end Item

namespace WorldObject

/-- A counted list of models of one kind. -/
theorem recognizes_models {q : ByteReader ObjectModel} {Valid : ObjectModel → Prop} {enc : ObjectModel → Bytes}
    (hq : Recognizes q fun m w => Valid m ∧ w = enc m) :
    Recognizes (do let count ← byte; Op.models <$> q.replicate count.toNat) fun op w =>
      ∃ ms, (ms.length < 256 ∧ (∀ m ∈ ms, Valid m) ∧ w = ofCounted enc ms) ∧ op = .models ms := by
  refine (((recognizes_counted hq 0).map Op.models).bind_map _).of_iff fun op w => ?_
  refine exists_congr fun ms => and_congr_left fun _ => ?_
  rw [exists_count_iff]
  exact and_left_comm

theorem recognizes_readTypedModels : Recognizes Op.readTypedModels fun op w =>
    ∃ ms, (ms.length < 256 ∧ (∀ m ∈ ms, m.modelType.isSome) ∧ w = ofCounted ofTypedModel ms) ∧ op = .models ms := by
  refine recognizes_models ((recognizes_pair recognizes_u16 recognizes_byte _).of_iff fun m w => ⟨?_, ?_⟩)
  · rintro ⟨x, rfl, rfl⟩
    exact ⟨rfl, rfl⟩
  · obtain ⟨id, _ | kind⟩ := m
    · rintro ⟨⟨⟩, -⟩
    · rintro ⟨-, rfl⟩
      exact ⟨(id, kind), rfl, rfl⟩

theorem recognizes_readModels : Recognizes Op.readModels fun op w =>
    ∃ ms, (ms.length < 256 ∧ (∀ m ∈ ms, m.modelType = none) ∧ w = ofCounted ofModel ms) ∧ op = .models ms := by
  refine recognizes_models ((recognizes_u16.map _).of_iff fun m w => ⟨?_, ?_⟩)
  · rintro ⟨id, rfl, rfl⟩
    exact ⟨rfl, rfl⟩
  · obtain ⟨id, _ | kind⟩ := m
    · rintro ⟨-, rfl⟩
      exact ⟨id, rfl, rfl⟩
    · rintro ⟨⟨⟩, -⟩

theorem recognizes_readChildren : Recognizes Op.readChildren fun op w =>
    ∃ x : Option UInt16 × Option UInt16 × List (Option UInt16),
      (Op.children x.1 x.2.1 x.2.2).Spells 77 w ∧ op = .children x.1 x.2.1 x.2.2 := by
  refine (recognizes_readOptional.bind fun varbitId => recognizes_readOptional.bind fun configId =>
    (((recognizes_counted recognizes_readOptional 1).map (Op.children varbitId configId)).bind_map _)).of_iff
    fun op w => ⟨?_, ?_⟩
  · rintro ⟨varbitId, _, _, ⟨hvarbit, rfl⟩, ⟨configId, _, _, ⟨hconfig, rfl⟩, hids, rfl⟩, rfl⟩
    obtain ⟨ids, ⟨hids, count, hlength, rfl⟩, rfl⟩ := hids
    refine ⟨(varbitId, configId, ids), ⟨rfl, hvarbit, hconfig, hids, count, hlength, ?_⟩, rfl⟩
    exact (List.append_assoc ..).symm
  · rintro ⟨x, ⟨-, hvarbit, hconfig, hids, count, hlength, rfl⟩, rfl⟩
    exact ⟨x.1, _, _, ⟨hvarbit, rfl⟩, ⟨x.2.1, _, _, ⟨hconfig, rfl⟩, ⟨x.2.2, ⟨hids, count, hlength, rfl⟩, rfl⟩, rfl⟩,
      List.append_assoc ..⟩

theorem takes_of_spells {op : Op} {code : UInt8} {w : Bytes} (h : op.Spells code w) :
    ∃ p, Op.payload? code = some p ∧ Takes p w op := by
  cases op
  case models ms =>
    obtain ⟨hlength, ⟨rfl, hms, rfl⟩ | ⟨rfl, hms, rfl⟩⟩ := h
    · exact ⟨_, rfl, recognizes_readTypedModels.takes ⟨ms, ⟨hlength, hms, rfl⟩, rfl⟩⟩
    · exact ⟨_, rfl, recognizes_readModels.takes ⟨ms, ⟨hlength, hms, rfl⟩, rfl⟩⟩
  case name | description =>
    obtain ⟨rfl, h⟩ := h
    exact ⟨_, rfl, (recognizes_text.takes h).map _⟩
  case interactive yes =>
    obtain ⟨rfl, b, rfl, hyes⟩ := h
    obtain rfl : yes = decide (b = 1) := by simp [← hyes]
    exact ⟨_, rfl, (recognizes_byte.takes rfl).map _⟩
  case animation =>
    obtain ⟨rfl, h⟩ := h
    exact ⟨_, rfl, (recognizes_readOptional.takes h).map _⟩
  case action slot _ =>
    obtain ⟨rfl, h⟩ := h
    fin_cases slot <;> exact ⟨_, rfl, (recognizes_readAction.takes h).map _⟩
  case recolors =>
    obtain ⟨rfl, h⟩ := h
    exact ⟨_, rfl, (recognizes_readRecolors.takes h).map _⟩
  case sizeX | sizeY | decorDisplacement | surroundings | supportItems =>
    obtain ⟨rfl, rfl⟩ := h
    exact ⟨_, rfl, (recognizes_byte.takes rfl).map _⟩
  case ambient | contrast =>
    obtain ⟨rfl, rfl⟩ := h
    exact ⟨_, rfl, (recognizes_i8.takes rfl).map _⟩
  case mapFunction | mapScene | scaleX | scaleY | scaleZ =>
    obtain ⟨rfl, rfl⟩ := h
    exact ⟨_, rfl, (recognizes_u16.takes rfl).map _⟩
  case shiftX | shiftY | shiftZ =>
    obtain ⟨rfl, rfl⟩ := h
    exact ⟨_, rfl, (recognizes_i16.takes rfl).map _⟩
  case children varbitId configId ids =>
    obtain rfl : code = 77 := h.1
    exact ⟨_, rfl, recognizes_readChildren.takes ⟨(varbitId, configId, ids), h, rfl⟩⟩
  all_goals
    obtain ⟨rfl, rfl⟩ := h
    exact ⟨_, rfl, .pure _⟩

/-- The op-codes, kind by kind of their payloads: none, a byte, whether the object is interactive, a signed byte, a
word, a signed word, an animation, a line, an action, colour changes, models in both ways, and children. -/
theorem code_of_payload? {code : UInt8} {p : ByteReader Op} (h : Op.payload? code = some p) :
    code ∈ [17, 18, 21, 22, 23, 62, 64, 73, 74] ∨ code ∈ [14, 15, 28, 69, 75] ∨ code = 19 ∨ code ∈ [29, 39] ∨
    code ∈ [60, 65, 66, 67, 68] ∨ code ∈ [70, 71, 72] ∨ code = 24 ∨ code ∈ [2, 3] ∨ code ∈ [30, 31, 32, 33, 34] ∨
    code = 40 ∨ code = 1 ∨ code = 5 ∨ code = 77 := by
  unfold Op.payload? at h
  split at h
  all_goals first | decide | cases h

theorem reads_of_payload? {code : UInt8} {p : ByteReader Op} (h : Op.payload? code = some p) :
    ReadsCode Op.Spells code p := by
  rcases code_of_payload? h with mark | byte | interactive | light | word | distance | animation | line | action |
    recolors | typedModels | models | children
  · fin_cases mark <;> cases h <;> exact .pure ⟨rfl, rfl⟩
  · fin_cases byte <;> cases h <;> exact .word recognizes_byte fun _ => ⟨rfl, rfl⟩
  · subst interactive
    cases h
    exact .word recognizes_byte fun b => ⟨rfl, b, rfl, by simp⟩
  · fin_cases light <;> cases h <;> exact .word recognizes_i8 fun _ => ⟨rfl, rfl⟩
  · fin_cases word <;> cases h <;> exact .word recognizes_u16 fun _ => ⟨rfl, rfl⟩
  · fin_cases distance <;> cases h <;> exact .word recognizes_i16 fun _ => ⟨rfl, rfl⟩
  · subst animation
    cases h
    exact .map recognizes_readOptional fun _ _ hid => ⟨rfl, hid⟩
  · fin_cases line <;> cases h <;> exact .map recognizes_text fun _ _ hline => ⟨rfl, hline⟩
  · fin_cases action <;> cases h <;> exact .map recognizes_readAction fun _ _ haction => ⟨rfl, haction⟩
  · subst recolors
    cases h
    exact .map recognizes_readRecolors fun _ _ hrecolors => ⟨rfl, hrecolors⟩
  · subst typedModels
    cases h
    refine ⟨_, recognizes_readTypedModels, ?_⟩
    rintro _ w ⟨ms, ⟨hlength, hms⟩, rfl⟩
    exact ⟨hlength, .inl ⟨rfl, hms⟩⟩
  · subst models
    cases h
    refine ⟨_, recognizes_readModels, ?_⟩
    rintro _ w ⟨ms, ⟨hlength, hms⟩, rfl⟩
    exact ⟨hlength, .inr ⟨rfl, hms⟩⟩
  · subst children
    cases h
    refine ⟨_, recognizes_readChildren, ?_⟩
    rintro _ w ⟨x, hx, rfl⟩
    exact hx

theorem reads_ops : ops.Reads Op.Spells := ⟨rfl, takes_of_spells, reads_of_payload?⟩

theorem eq_models_of_spells {op : Op} {code : UInt8} {w : Bytes} (h : op.Spells code w)
    (hcode : fieldCode code = 1) : ∃ ms, op = .models ms := by
  obtain rfl | rfl : code = 1 ∨ code = 5 := by
    unfold fieldCode at hcode
    split at hcode
    · next h5 => exact .inr h5
    · exact .inl hcode
  · obtain ⟨ms, -, hop⟩ := reads_ops.of_spells h rfl recognizes_readTypedModels
    exact ⟨ms, hop⟩
  · obtain ⟨ms, -, hop⟩ := reads_ops.of_spells h rfl recognizes_readModels
    exact ⟨ms, hop⟩

end WorldObject

end AssetCache
