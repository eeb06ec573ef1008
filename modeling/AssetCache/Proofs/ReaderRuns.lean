import Mathlib
import AssetCache.Proofs.ReaderWords

/-!
# How readers run

`Reader.FailsOnly P p`: all errors of `p` have `P`. `ByteReader.Steady p`: more bytes behind those that were
enough for an answer do not change it. Both are kept by the ways in which readers are put together, so that a
reader of records is dealt with part by part. `Reader.Mirrors.loop`: two loops whose steps agree in related
states agree.
-/

namespace AssetCache

namespace Reader
variable {τ ε ε' α β β' σ σ' : Type} {P : ε → Prop}

/-! ### Errors -/

/-- That all errors of a reader are of a kind. -/
def FailsOnly (P : ε → Prop) (p : Reader τ ε α) : Prop := ∀ s e, p.run s = .error e → P e

namespace FailsOnly
variable {p : Reader τ ε α}

theorem pure (a : α) : FailsOnly P (Pure.pure a : Reader τ ε α) := by
  intro s e h
  simp at h

theorem fail {e : ε} (he : P e) : FailsOnly P (Reader.fail e : Reader τ ε α) := by
  intro s e' h
  simp only [run_fail, Except.error.injEq] at h
  exact h ▸ he

theorem bind (hp : FailsOnly P p) {f : α → Reader τ ε β} (hf : ∀ a, FailsOnly P (f a)) :
    FailsOnly P (p >>= f) := by
  intro s e h
  cases hrun : p.run s with
  | error e' =>
    rw [run_bind_of_error hrun] at h
    cases h
    exact hp s _ hrun
  | ok x =>
    rw [run_bind_of_ok hrun] at h
    exact hf x.1 x.2 e h

theorem ite {c : Prop} [Decidable c] {q : Reader τ ε α} (hp : FailsOnly P p) (hq : FailsOnly P q) :
    FailsOnly P (if c then p else q) := by
  split
  · exact hp
  · exact hq

theorem loop {step : σ → Reader τ ε (σ ⊕ β)} {progress : Progress step} (h : ∀ st, FailsOnly P (step st))
    (st : σ) : FailsOnly P (Reader.loop step progress st) := by
  intro s e he
  simp only [Reader.loop] at he
  fun_induction iterate step progress st s with
  | case1 st s e' hs =>
    cases he
    exact h st s _ hs
  | case2 st s st' r hs ih => exact ih he
  | case3 st s b r hs => cases he

end FailsOnly

/-! ### Two loops -/

/-- That a reader does what another one does, with `f` applied to the answers and `g` to the errors. -/
def Mirrors (f : α → β) (g : ε → ε') (p : Reader τ ε α) (q : Reader τ ε' β) : Prop :=
  ∀ s, q.run s = ((p.run s).map (Prod.map f id)).mapError g

/-- That a step of one loop is answered by a step of another: with an error, the error is its image under `g`,
at the end the answer is its image under `f`, and otherwise both go on in related states. -/
inductive Follows (R : σ → σ' → Prop) (f : β → β') (g : ε → ε') :
    Except ε ((σ ⊕ β) × List τ) → Except ε' ((σ' ⊕ β') × List τ) → Prop
  | fails (e : ε) : Follows R f g (.error e) (.error (g e))
  | goesOn {st : σ} {st' : σ'} {r : List τ} : R st st' → Follows R f g (.ok (.inl st, r)) (.ok (.inl st', r))
  | ends (b : β) (r : List τ) : Follows R f g (.ok (.inr b, r)) (.ok (.inr (f b), r))

namespace Follows
variable {R : σ → σ' → Prop} {f : β → β'} {g : ε → ε'} {r : List τ} {out : Except ε' ((σ' ⊕ β') × List τ)}

theorem of_error {e : ε} (h : Follows R f g (.error e : Except ε ((σ ⊕ β) × List τ)) out) : out = .error (g e) := by
  cases h
  rfl

theorem of_goesOn {st : σ} (h : Follows R f g (.ok (.inl st, r)) out) :
    ∃ st', out = .ok (.inl st', r) ∧ R st st' := by
  cases h with
  | goesOn hR => exact ⟨_, rfl, hR⟩

theorem of_ends {b : β} (h : Follows R f g (.ok (.inr b, r)) out) : out = .ok (.inr (f b), r) := by
  cases h
  rfl

/-- Steps that start in the same way go on in the same way. -/
theorem bind {γ γ' : Type} {p : Reader τ ε γ} {q : Reader τ ε' γ'} {i : γ → γ'} {k : γ → Reader τ ε (σ ⊕ β)}
    {k' : γ' → Reader τ ε' (σ' ⊕ β')} {s : List τ} (hp : Mirrors i g p q)
    (hk : ∀ c r, Follows R f g ((k c).run r) ((k' (i c)).run r)) :
    Follows R f g ((p >>= k).run s) ((q >>= k').run s) := by
  have hq := hp s
  cases hrun : p.run s with
  | error e =>
    rw [hrun] at hq
    rw [run_bind_of_error hrun, run_bind_of_error hq]
    exact .fails e
  | ok x =>
    rw [hrun] at hq
    rw [run_bind_of_ok hrun, run_bind_of_ok hq]
    exact hk x.1 x.2

/-- Steps that decide in the same way follow each other if they do on either side of the decision. -/
theorem ite {c c' : Prop} [Decidable c] [Decidable c'] {p q : Reader τ ε (σ ⊕ β)} {p' q' : Reader τ ε' (σ' ⊕ β')}
    {s : List τ} (hc : c ↔ c') (hp : c → Follows R f g (p.run s) (p'.run s))
    (hq : ¬ c → Follows R f g (q.run s) (q'.run s)) :
    Follows R f g ((if c then p else q).run s) ((if c' then p' else q').run s) := by
  by_cases h : c
  · rw [if_pos h, if_pos (hc.1 h)]
    exact hp h
  · rw [if_neg h, if_neg (mt hc.2 h)]
    exact hq h

end Follows

/-- Two loops whose steps agree in related states agree. -/
theorem Mirrors.loop {step : σ → Reader τ ε (σ ⊕ β)} {step' : σ' → Reader τ ε' (σ' ⊕ β')}
    {progress : Progress step} {progress' : Progress step'} {R : σ → σ' → Prop} {f : β → β'} {g : ε → ε'}
    (hstep : ∀ st st' s, R st st' → Follows R f g ((step st).run s) ((step' st').run s)) {st : σ} {st' : σ'}
    (h : R st st') : Mirrors f g (Reader.loop step progress st) (Reader.loop step' progress' st') := by
  intro s
  show _ = ((iterate step progress st s).map _).mapError g
  fun_induction iterate step progress st s generalizing st' with
  | case1 st s e hs =>
    have hfollows := hstep st st' s h
    rw [hs] at hfollows
    rw [run_loop, hfollows.of_error]
    rfl
  | case2 st s st₁ r hs ih =>
    have hfollows := hstep st st' s h
    rw [hs] at hfollows
    obtain ⟨st₁', hout, hR⟩ := hfollows.of_goesOn
    rw [run_loop, hout]
    exact ih hR
  | case3 st s b r hs =>
    have hfollows := hstep st st' s h
    rw [hs] at hfollows
    rw [run_loop, hfollows.of_ends]
    rfl

end Reader

namespace ByteReader
open Bytes
variable {α β : Type} {p : ByteReader α}

/-- A reader that only fails when the bytes end inside of a word fails in no other way. -/
theorem Recognizes.failsOnly {L : α → Bytes → Prop} (hp : Recognizes p L) {P : LoadError → Prop}
    (hP : ∀ needed remaining, P (.endOfData needed remaining)) : Reader.FailsOnly P p := by
  intro s e h
  obtain ⟨needed, remaining, hs⟩ := (hp.cutOff h).1
  rw [h] at hs
  cases hs
  exact hP needed remaining

theorem Recognizes.mirrors {L : α → Bytes → Prop} (hp : Recognizes p L) {g : LoadError → LoadError}
    (hg : ∀ needed remaining, g (.endOfData needed remaining) = .endOfData needed remaining) :
    Reader.Mirrors id g p p := by
  intro s
  cases h : p.run s with
  | error e =>
    obtain ⟨needed, remaining, hs⟩ := (hp.cutOff h).1
    rw [h] at hs
    cases hs
    exact congrArg Except.error (hg needed remaining).symm
  | ok x => rfl

/-! ### More bytes -/

/-- That bytes behind those that were enough for an answer are left over and do not change it. -/
structure Steady (p : ByteReader α) : Prop where
  run_append : ∀ {s a r}, p.run s = .ok (a, r) → ∀ t, p.run (s ++ t) = .ok (a, r ++ t)
  error_append : ∀ {s e}, p.run s = .error e → ¬ p.Starves s → ∀ t, p.run (s ++ t) = .error e

/-- A reader that only fails when the bytes end inside of a word has all that it needs otherwise. -/
theorem Recognizes.steady {L : α → Bytes → Prop} (hp : Recognizes p L) : Steady p where
  run_append h t := by
    obtain ⟨w, hw, rfl⟩ := hp.word h
    rw [List.append_assoc]
    exact hp.run hw _
  error_append h hs := absurd (hp.cutOff h).1 hs

namespace Steady

theorem pure (a : α) : Steady (Pure.pure a : ByteReader α) where
  run_append h t := by
    cases h
    rfl
  error_append h := by simp at h

theorem fail (e : LoadError) : Steady (Reader.fail e : ByteReader α) where
  run_append h := by simp at h
  error_append h _ t := by
    cases h
    rfl

theorem bind (hp : Steady p) {f : α → ByteReader β} (hf : ∀ a, Steady (f a)) : Steady (p >>= f) where
  run_append h t := by
    obtain ⟨a, r, ha, hb⟩ := Reader.run_bind_eq_ok.1 h
    rw [Reader.run_bind_of_ok (hp.run_append ha t)]
    exact (hf a).run_append hb t
  error_append {s e} h hs t := by
    cases hrun : p.run s with
    | error e' =>
      rw [Reader.run_bind_of_error hrun] at h
      cases h
      exact Reader.run_bind_of_error (hp.error_append hrun (fun hp' => hs (hp'.bind f)) t)
    | ok x =>
      rw [Reader.run_bind_of_ok hrun] at h
      rw [Reader.run_bind_of_ok (hp.run_append hrun t)]
      exact (hf x.1).error_append h (fun hf' => hs (.of_bind hrun hf')) t

theorem map (hp : Steady p) (g : α → β) : Steady (g <$> p) := hp.bind fun a => pure (g a)

theorem ite {c : Prop} [Decidable c] {q : ByteReader α} (hp : c → Steady p) (hq : ¬ c → Steady q) :
    Steady (if c then p else q) := by
  split
  · next hc => exact hp hc
  · next hc => exact hq hc

theorem congr_run {q : ByteReader α} (hp : Steady p) (h : ∀ s, q.run s = p.run s) : Steady q where
  run_append {s a r} hq t := by
    rw [h] at hq ⊢
    exact hp.run_append hq t
  error_append {s e} hq hs t := by
    have hstarves : ¬ p.Starves s := by
      rintro ⟨needed, remaining, he⟩
      exact hs ⟨needed, remaining, (h s).trans he⟩
    rw [h] at hq ⊢
    exact hp.error_append hq hstarves t

theorem replicate (hp : Steady p) (n : ℕ) : Steady (p.replicate n) := by
  induction n with
  | zero => exact pure []
  | succ n ih =>
    have hsucc : Steady (do let a ← p; let as ← p.replicate n; Pure.pure (a :: as)) :=
      hp.bind fun a => ih.bind fun as => pure (a :: as)
    exact hsucc.congr_run (Reader.run_replicate_succ p n)

end Steady

end ByteReader

end AssetCache
