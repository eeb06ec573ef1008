/-! # Readers

A reader takes something off the front of a list and hands back the rest, or fails and hands back
nothing. What it hands back is always a suffix of what it was given: that is a field of the type, and
every loop over input ends because of it. Main statements: `run_bind` (one reader after another) and
`run_loop` (a step repeated until it stops). -/

namespace AssetCache

/-- Takes an `α` off the front of a list of `τ`, or fails with an `ε`. -/
structure Reader (τ ε α : Type) where
  run : List τ → Except ε (α × List τ)
  suffix : ∀ {s a r}, run s = .ok (a, r) → r <:+ s

namespace Reader
variable {τ ε α β σ : Type}

instance : Monad (Reader τ ε) where
  pure a := ⟨fun s => .ok (a, s), by rintro s a r ⟨⟩; exact List.suffix_refl _⟩
  bind p f :=
    { run := fun s =>
        match p.run s with
        | .error e => .error e
        | .ok (a, r) => (f a).run r
      suffix := by
        intro s b r h
        split at h
        · nomatch h
        · next a t hp => exact ((f a).suffix h).trans (p.suffix hp) }

@[simp] theorem run_pure (a : α) (s : List τ) : (pure a : Reader τ ε α).run s = .ok (a, s) := rfl

theorem run_bind (p : Reader τ ε α) (f : α → Reader τ ε β) (s : List τ) :
    (p >>= f).run s = (match p.run s with | .error e => .error e | .ok (a, r) => (f a).run r) := rfl

theorem run_bind_of_ok {p : Reader τ ε α} {f : α → Reader τ ε β} {s r : List τ} {a : α}
    (h : p.run s = .ok (a, r)) : (p >>= f).run s = (f a).run r := by
  simp only [run_bind, h]

theorem run_bind_of_error {p : Reader τ ε α} {f : α → Reader τ ε β} {s : List τ} {e : ε}
    (h : p.run s = .error e) : (p >>= f).run s = .error e := by
  simp only [run_bind, h]

theorem run_map (f : α → β) (p : Reader τ ε α) (s : List τ) :
    (f <$> p).run s = (match p.run s with | .error e => .error e | .ok (a, r) => .ok (f a, r)) := rfl

theorem run_bind_eq_ok {p : Reader τ ε α} {f : α → Reader τ ε β} {s r : List τ} {b : β} :
    (p >>= f).run s = .ok (b, r) ↔ ∃ a t, p.run s = .ok (a, t) ∧ (f a).run t = .ok (b, r) := by
  rw [run_bind]
  cases p.run s with
  | error e => simp
  | ok x =>
    constructor
    · intro h; exact ⟨x.1, x.2, rfl, h⟩
    · rintro ⟨a, t, ⟨⟩, h⟩; exact h

theorem length_le {p : Reader τ ε α} {s r : List τ} {a : α} (h : p.run s = .ok (a, r)) :
    r.length ≤ s.length := (p.suffix h).length_le

/-- Fails whatever the input. -/
def fail (e : ε) : Reader τ ε α := ⟨fun _ => .error e, fun h => nomatch h⟩

@[simp] theorem run_fail (e : ε) (s : List τ) : (fail e : Reader τ ε α).run s = .error e := rfl

/-- What comes next, which is left where it is. -/
def peek : Reader τ ε (Option τ) :=
  ⟨fun s => .ok (s.head?, s), by rintro s a r ⟨⟩; exact List.suffix_refl _⟩

/-- All that comes next, which is left where it is. -/
def ahead : Reader τ ε (List τ) := ⟨fun s => .ok (s, s), by rintro s a r ⟨⟩; exact List.suffix_refl _⟩

/-- The longest run of members for which `f` holds. -/
def takeWhile (f : τ → Bool) : Reader τ ε (List τ) :=
  ⟨fun s => .ok (s.takeWhile f, s.dropWhile f), by rintro s a r ⟨⟩; exact List.dropWhile_suffix _⟩

/-- The next member if `f` holds for it, else the error `e`. -/
def satisfy (e : ε) (f : τ → Bool) : Reader τ ε τ where
  run
    | a :: r => if f a then .ok (a, r) else .error e
    | [] => .error e
  suffix {s a r} h := by
    split at h
    · split at h
      · cases h; exact List.suffix_cons _ _
      · nomatch h
    · nomatch h

/-- `p`, or `q` in the same place if `p` fails. -/
def orElse (p q : Reader τ ε α) : Reader τ ε α where
  run s :=
    match p.run s with
    | .ok x => .ok x
    | .error _ => q.run s
  suffix {s a r} h := by
    split at h
    · next hp => cases h; exact p.suffix hp
    · exact q.suffix h

/-- `p` if it succeeds, else nothing. -/
def optional (p : Reader τ ε α) : Reader τ ε (Option α) := (some <$> p).orElse (pure none)

theorem run_optional_some {p : Reader τ ε α} {s r : List τ} {a : α} :
    (optional p).run s = .ok (some a, r) ↔ p.run s = .ok (a, r) := by
  simp only [optional, orElse, run_map, run_pure]
  cases p.run s <;> simp [Prod.ext_iff]

/-- What `p` takes. -/
def taken (p : Reader τ ε α) : Reader τ ε (List τ) where
  run s :=
    match p.run s with
    | .ok (_, r) => .ok (s.take (s.length - r.length), r)
    | .error e => .error e
  suffix {s a r} h := by
    split at h
    · next hp => cases h; exact p.suffix hp
    · nomatch h

/-- Whether nothing is left. -/
def atEnd : Reader τ ε Bool :=
  ⟨fun s => .ok (s.isEmpty, s), by rintro s a r ⟨⟩; exact List.suffix_refl _⟩

@[simp] theorem run_atEnd (s : List τ) : (atEnd : Reader τ ε Bool).run s = .ok (s.isEmpty, s) := rfl

/-- `p`, with its errors changed by `f`. -/
def mapError {ε' : Type} (f : ε → ε') (p : Reader τ ε α) : Reader τ ε' α where
  run s :=
    match p.run s with
    | .error e => .error (f e)
    | .ok x => .ok x
  suffix {s a r} h := by
    split at h
    · nomatch h
    · next hp => cases h; exact p.suffix hp

/-- Succeeds only by taking something. -/
def Strict (p : Reader τ ε α) : Prop :=
  ∀ s a r, p.run s = .ok (a, r) → r.length < s.length

theorem Strict.bind {p : Reader τ ε α} (hp : p.Strict) (f : α → Reader τ ε β) : (p >>= f).Strict := by
  intro s b r h
  obtain ⟨a, t, ht, hr⟩ := run_bind_eq_ok.mp h
  exact Nat.lt_of_le_of_lt (length_le hr) (hp _ _ _ ht)

theorem Strict.bind_right (p : Reader τ ε α) {f : α → Reader τ ε β} (hf : ∀ a, (f a).Strict) :
    (p >>= f).Strict := by
  intro s b r h
  obtain ⟨a, t, ht, hr⟩ := run_bind_eq_ok.mp h
  exact Nat.lt_of_lt_of_le (hf a _ _ _ hr) (length_le ht)

theorem Strict.map {p : Reader τ ε α} (hp : p.Strict) (f : α → β) : (f <$> p).Strict := hp.bind _

theorem Strict.fail (e : ε) : (fail e : Reader τ ε α).Strict := fun _ _ _ h => nomatch h

/-- Reads `n` times, collecting in reverse so that it runs in constant stack. -/
def collect (p : Reader τ ε α) : Nat → List τ → List α → Except ε (List α × List τ)
  | 0, s, acc => .ok (acc.reverse, s)
  | n + 1, s, acc =>
    match p.run s with
    | .error e => .error e
    | .ok (a, r) => collect p n r (a :: acc)

theorem suffix_of_collect {p : Reader τ ε α} {n : Nat} {s r : List τ} {acc as : List α}
    (h : collect p n s acc = .ok (as, r)) : r <:+ s := by
  induction n generalizing s acc with
  | zero => cases h; exact List.suffix_refl _
  | succ n ih =>
    unfold collect at h
    split at h
    · nomatch h
    · next a t hp => exact (ih h).trans (p.suffix hp)

theorem collect_eq (p : Reader τ ε α) (n : Nat) (s : List τ) (acc : List α) :
    collect p n s acc =
      (match collect p n s [] with
        | .error e => .error e
        | .ok (as, r) => .ok (acc.reverse ++ as, r)) := by
  induction n generalizing s acc with
  | zero => simp [collect]
  | succ n ih =>
    simp only [collect]
    cases p.run s with
    | error e => rfl
    | ok x =>
      simp only [ih x.2 (x.1 :: acc), ih x.2 [x.1]]
      cases collect p n x.2 [] <;> simp

/-- Reads `count` times. -/
def replicate (p : Reader τ ε α) (count : Nat) : Reader τ ε (List α) :=
  ⟨fun s => collect p count s [], suffix_of_collect⟩

theorem run_replicate_succ (p : Reader τ ε α) (n : Nat) (s : List τ) :
    (p.replicate (n + 1)).run s = (do let a ← p; let as ← p.replicate n; pure (a :: as)).run s := by
  simp only [run_bind, run_pure, replicate, collect]
  cases p.run s with
  | error e => rfl
  | ok x =>
    simp only [collect_eq p n x.2 [x.1]]
    cases collect p n x.2 [] <;> simp

/-- A step that takes something whenever it asks to go on. -/
def Progress (step : σ → Reader τ ε (σ ⊕ β)) : Prop :=
  ∀ st s st' r, (step st).run s = .ok (.inl st', r) → r.length < s.length

/-- Repeats a step, from state to state, until it answers `.inr`. -/
def iterate (step : σ → Reader τ ε (σ ⊕ β)) (progress : Progress step) (st : σ) (s : List τ) :
    Except ε (β × List τ) :=
  match _h : (step st).run s with
  | .error e => .error e
  | .ok (.inl st', r) => iterate step progress st' r
  | .ok (.inr b, r) => .ok (b, r)
termination_by s.length
decreasing_by exact progress _ _ _ _ _h

theorem suffix_of_iterate {step : σ → Reader τ ε (σ ⊕ β)} {progress : Progress step} {st : σ}
    {s r : List τ} {b : β} (h : iterate step progress st s = .ok (b, r)) : r <:+ s := by
  fun_induction iterate step progress st s with
  | case1 => nomatch h
  | case2 st s st' t hs ih => exact (ih h).trans ((step st).suffix hs)
  | case3 st s b' t hs => cases h; exact (step st).suffix hs

/-- The reader that repeats a step, starting from `st`, until it answers `.inr`. -/
def loop (step : σ → Reader τ ε (σ ⊕ β)) (progress : Progress step) (st : σ) : Reader τ ε β :=
  ⟨iterate step progress st, suffix_of_iterate⟩

theorem run_loop {step : σ → Reader τ ε (σ ⊕ β)} {progress : Progress step} (st : σ) (s : List τ) :
    (loop step progress st).run s =
      (match (step st).run s with
        | .error e => .error e
        | .ok (.inl st', r) => (loop step progress st').run r
        | .ok (.inr b, r) => .ok (b, r)) := by
  simp only [loop]
  conv => lhs; unfold iterate
  split <;> simp_all

/-- A loop keeps what each of its steps keeps. -/
theorem loop_invariant {step : σ → Reader τ ε (σ ⊕ β)} {progress : Progress step} {P : σ → Prop}
    {Q : β → Prop} (keep : ∀ st s st' r, (step st).run s = .ok (.inl st', r) → P st → P st')
    (stop : ∀ st s b r, (step st).run s = .ok (.inr b, r) → P st → Q b) {st : σ} {s r : List τ} {b : β}
    (h : (loop step progress st).run s = .ok (b, r)) (hP : P st) : Q b := by
  simp only [loop] at h
  fun_induction iterate step progress st s with
  | case1 => nomatch h
  | case2 st s st' t hs ih => exact ih h (keep _ _ _ _ hs hP)
  | case3 st s b' t hs => cases h; exact stop _ _ _ _ hs hP

theorem strict_satisfy (e : ε) (f : τ → Bool) : (satisfy e f).Strict := by
  intro s a r h
  cases s with
  | nil => nomatch h
  | cons b s =>
    simp only [satisfy] at h
    split at h
    · cases h; simp
    · nomatch h

theorem Strict.orElse {p q : Reader τ ε α} (hp : p.Strict) (hq : q.Strict) : (p.orElse q).Strict := by
  intro s a r h
  simp only [Reader.orElse] at h
  split at h
  · next hp' => cases h; exact hp _ _ _ hp'
  · exact hq _ _ _ h

/-- One more `p` onto the reversed `acc`, or the end of them if it fails. -/
def moreOf (p : Reader τ ε α) (acc : List α) : Reader τ ε (List α ⊕ List α) :=
  ((fun a => .inl (a :: acc)) <$> p).orElse (pure (.inr acc))

theorem progress_moreOf {p : Reader τ ε α} (hp : p.Strict) : Progress (moreOf p) := by
  intro acc s st' r h
  simp only [moreOf, Reader.orElse] at h
  split at h
  · next h' => cases h; exact (hp.map _) _ _ _ h'
  · nomatch h

/-- As many `p` as there are. -/
def many (p : Reader τ ε α) (hp : p.Strict) : Reader τ ε (List α) :=
  List.reverse <$> loop (moreOf p) (progress_moreOf hp) []

end Reader

end AssetCache
