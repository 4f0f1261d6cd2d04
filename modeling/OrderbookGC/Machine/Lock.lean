/-
Programs over mutexes. A mutex is a flag, held or free; locking one that the running call chain holds stops the program
with an error. A program that takes mutexes only below a rank, and each below the last one it holds, never meets a held
one: `Returns` says that a program comes to its end, with the flags as it found them, and what it does to a view of the
state; the rule for a critical section is `Returns.withLock`.
-/
import Mathlib.Logic.Function.Basic
import Mathlib.Tactic.Common

namespace Machine.Lock

variable {μ σ τ α β : Type}

/-- The held mutexes. -/
abbrev Flags (μ : Type) := μ → Bool

def Flags.free : Flags μ := fun _ => false

/-- Programs with the flags and a state; they stop at a mutex, and `none` is a call that does not return. -/
abbrev LockM (μ σ : Type) := StateT (Flags μ × σ) (ExceptT μ Option)

def state : LockM μ σ σ := fun x => pure (x.2, x)

def change (f : σ → σ) : LockM μ σ Unit := fun x => pure ((), x.1, f x.2)

/-- A part that takes no mutex. -/
def act (f : σ → Option (α × σ)) : LockM μ σ α := fun x => (f x.2).map fun y => .ok (y.1, x.1, y.2)

section

variable [DecidableEq μ]

def lock (m : μ) : LockM μ σ Unit := fun x => if x.1 m then throw m else pure ((), Function.update x.1 m true, x.2)

def unlock (m : μ) : LockM μ σ Unit := fun x => pure ((), Function.update x.1 m false, x.2)

/-- The scope of a lock guard. -/
def withLock (m : μ) (p : LockM μ σ α) : LockM μ σ α := do
  lock m
  let a ← p
  unlock m
  return a

end

/-! ## Programs that return -/

/-- The program returns `a`, leaves the flags as they are and the view `π` of the state at `t`. -/
def Returns (π : σ → τ) (p : LockM μ σ α) (held : Flags μ) (s : σ) (a : α) (t : τ) : Prop :=
  ∃ s', p (held, s) = some (.ok (a, held, s')) ∧ π s' = t

/-- The program stops at a mutex that is held. -/
def Relocks (p : LockM μ σ α) (held : Flags μ) (s : σ) (m : μ) : Prop := p (held, s) = some (.error m)

variable {π : σ → τ} {p : LockM μ σ α} {q : α → LockM μ σ β} {held held' : Flags μ} {s : σ} {a : α} {b : β} {t u : τ} {m : μ}

theorem bind_ok {s' : σ} (h : p (held, s) = some (.ok (a, held', s'))) : (p >>= q) (held, s) = q a (held', s') := by
  show (ExceptT.bind (p (held, s)) fun x => q x.1 x.2) = _
  rw [h]
  rfl

namespace Returns

theorem pure : Returns π (Pure.pure a : LockM μ σ α) held s a (π s) := ⟨s, rfl, rfl⟩

theorem change {f : σ → σ} : Returns π (change f : LockM μ σ Unit) held s () (π (f s)) := ⟨f s, rfl, rfl⟩

theorem act {f : σ → Option (α × σ)} {s' : σ} (h : f s = some (a, s')) : Returns π (act f : LockM μ σ α) held s a (π s') :=
  ⟨s', by unfold Lock.act; rw [h]; rfl, rfl⟩

theorem state {q : σ → LockM μ σ β} (h : Returns π (q s) held s b u) : Returns π (state >>= q) held s b u := by
  obtain ⟨s', h, hu⟩ := h
  exact ⟨s', (bind_ok rfl).trans h, hu⟩

theorem bind (h : Returns π p held s a t) (hq : ∀ s', π s' = t → Returns π (q a) held s' b u) :
    Returns π (p >>= q) held s b u := by
  obtain ⟨s₁, h, ht⟩ := h
  obtain ⟨s', hq, hu⟩ := hq s₁ ht
  exact ⟨s', (bind_ok h).trans hq, hu⟩

/-- A loop whose body does to the view what a function does. -/
theorem forM {f : α → LockM μ σ Unit} {g : τ → α → τ} (h : ∀ a s, Returns π (f a) held s () (g (π s) a)) :
    ∀ (l : List α) (s : σ), Returns π (l.forM f) held s () (l.foldl g (π s))
  | [], _ => pure
  | a :: l, s => (h a s).bind fun s₁ hs₁ => by
    rw [List.foldl_cons, ← hs₁]
    exact forM h l s₁

/-- A loop that collects what its body returns, where the body leaves the view alone. -/
theorem mapM {f : α → LockM μ σ β} {g : α → β} (h : ∀ a s, Returns π (f a) held s (g a) (π s)) :
    ∀ (l : List α) (s : σ), Returns π (l.mapM f) held s (l.map g) (π s)
  | [], _ => by
    rw [List.mapM_nil]
    exact pure
  | a :: l, s => by
    rw [List.mapM_cons]
    refine (h a s).bind fun s₁ hs₁ => (mapM h l s₁).bind fun s₂ hs₂ => ?_
    rw [← hs₁, ← hs₂]
    exact pure

theorem not_relocks (h : Returns π p held s a t) (m : μ) : ¬ Relocks p held s m := by
  obtain ⟨s', h, -⟩ := h
  unfold Relocks
  rw [h]
  nofun

end Returns

theorem Relocks.bind (h : Relocks p held s m) : Relocks (p >>= q) held s m := by
  show (ExceptT.bind (p (held, s)) fun x => q x.1 x.2) = _
  rw [show p (held, s) = _ from h]
  rfl

/-- The first part of a program returns, the second stops. -/
theorem Relocks.after (h : Returns π p held s a t) (hq : ∀ s', π s' = t → Relocks (q a) held s' m) :
    Relocks (p >>= q) held s m := by
  obtain ⟨s', h, ht⟩ := h
  exact (bind_ok h).trans (hq s' ht)

/-! ## The hierarchy -/

variable {rank : μ → Nat} {n : Nat}

/-- The mutexes below a rank are free. -/
def Free (rank : μ → Nat) (n : Nat) (held : Flags μ) : Prop := ∀ m, rank m < n → held m = false

theorem Free.flags : Free rank n (Flags.free : Flags μ) := fun _ _ => rfl

theorem Free.mono {k : Nat} (h : Free rank n held) (hk : k ≤ n) : Free rank k held :=
  fun m hm => h m (Nat.lt_of_lt_of_le hm hk)

section

variable [DecidableEq μ]

theorem withLock_relocks (h : held m = true) : Relocks (withLock m p) held s m :=
  Relocks.bind (by unfold Relocks Lock.lock; dsimp only; rw [if_pos h]; rfl)

theorem Relocks.withLock {m' : μ} (hm : held m = false) (h : Relocks p (Function.update held m true) s m') :
    Relocks (withLock m p) held s m' := by
  have hlock : (lock m : LockM μ σ Unit) (held, s) = some (.ok ((), Function.update held m true, s)) := by
    unfold Lock.lock
    dsimp only
    rw [if_neg (by rw [hm]; nofun)]
    rfl
  exact (bind_ok hlock).trans h.bind

/-- What stays free when a mutex is taken: everything below it. -/
theorem Free.take (h : Free rank (rank m + 1) held) : Free rank (rank m) (Function.update held m true) := fun m' hm' => by
  have hne : m' ≠ m := fun e => absurd hm' (e ▸ Nat.lt_irrefl _)
  rw [Function.update_of_ne hne]
  exact h m' (Nat.lt_trans hm' (Nat.lt_succ_self _))

/-- A critical section that takes nothing at its mutex's rank or above. -/
theorem Returns.withLock (hf : Free rank n held) (hm : rank m < n)
    (h : ∀ held', Free rank (rank m) held' → Returns π p held' s a t) : Returns π (withLock m p) held s a t := by
  have hfree : held m = false := hf m hm
  obtain ⟨s', h, ht⟩ := h _ (hf.mono hm).take
  have hlock : (lock m : LockM μ σ Unit) (held, s) = some (.ok ((), Function.update held m true, s)) := by
    unfold Lock.lock
    dsimp only
    rw [if_neg (by rw [hfree]; nofun)]
    rfl
  refine ⟨s', (bind_ok hlock).trans ((bind_ok h).trans ?_), ht⟩
  show some (Except.ok (a, Function.update (Function.update held m true) m false, s')) = _
  rw [Function.update_idem, ← hfree, Function.update_eq_self]

end

end Machine.Lock
