/-
Two runs of one machine that agree on what they are not supposed to hide. `purge` deletes the hidden inputs of a run,
each judged in the state it meets; a relation that a hidden step does not move, and that a visible step taken on both
sides keeps, holds at the ends of two runs whose purged inputs are the same (`unwind`).
-/
import OrderbookGC.Machine.Run

namespace Machine

variable {σ α : Type} {step : σ → α → Option σ} {hidden : σ → α → Bool}

/-- The inputs of a run that are not hidden in the state they meet. -/
def purge (step : σ → α → Option σ) (hidden : σ → α → Bool) : σ → List α → List α
  | _, [] => []
  | s, a :: l =>
    let rest :=
      match step s a with
      | none => []
      | some s' => purge step hidden s' l
    if hidden s a then rest else a :: rest

theorem purge_cons {s s' : σ} {a : α} (l : List α) (h : step s a = some s') : purge step hidden s (a :: l) =
    if hidden s a then purge step hidden s' l else a :: purge step hidden s' l := by
  unfold purge
  rw [h]
  cases hs : hidden s a with
  | true => simp only [if_true]; cases l <;> rfl
  | false => simp only [Bool.false_eq_true, if_false]; cases l <;> rfl

/-- A run over one more input is its first step and the run over the rest. -/
theorem foldlM_cons_some {s t : σ} {a : α} {l : List α} (h : (a :: l).foldlM step s = some t) :
    ∃ s', step s a = some s' ∧ l.foldlM step s' = some t := by
  rw [List.foldlM_cons] at h
  exact Option.bind_eq_some_iff.1 h

/-- Whether an input is hidden may not depend on the state. -/
theorem purge_eq_filter {keep : α → Bool} : ∀ {l : List α} {s t : σ}, l.foldlM step s = some t →
    purge step (fun _ a => !keep a) s l = l.filter keep
  | [], _, _, _ => rfl
  | a :: l, s, t, h => by
    obtain ⟨s', hs, hrun⟩ := foldlM_cons_some h
    rw [purge_cons l hs, purge_eq_filter hrun, List.filter_cons]
    cases keep a <;> rfl

theorem purge_append {l m : List α} : ∀ {s t : σ}, l.foldlM step s = some t →
    purge step hidden s (l ++ m) = purge step hidden s l ++ purge step hidden t m := by
  induction l with
  | nil => intro s t h; cases h; rfl
  | cons a l ih =>
    intro s t h
    obtain ⟨s', hs, hrun⟩ := foldlM_cons_some h
    rw [List.cons_append, purge_cons _ hs, purge_cons _ hs, ih hrun]
    split_ifs <;> rfl

theorem purge_eq_nil {l : List α} (h : ∀ s, ∀ a ∈ l, hidden s a = true) {s : σ} : purge step hidden s l = [] := by
  induction l generalizing s with
  | nil => rfl
  | cons a l ih =>
    unfold purge
    rw [if_pos (h s a List.mem_cons_self)]
    cases step s a with
    | none => rfl
    | some s' => exact ih fun s b hb => h s b (List.mem_cons_of_mem _ hb)

section Unwind

variable {R : σ → σ → Prop} {I : List α → σ → Prop}

/-- A run all of whose inputs are hidden moves nothing. -/
theorem unwind_hidden (hkeep : ∀ a l s s', I (a :: l) s → step s a = some s' → I l s')
    (hhidden : ∀ a l s s', I (a :: l) s → hidden s a = true → step s a = some s' → R s s')
    (hrefl : ∀ s, R s s) (htrans : ∀ {s t u}, R s t → R t u → R s u) : ∀ {l : List α} {s s' : σ}, I l s →
    purge step hidden s l = [] → l.foldlM step s = some s' → R s s'
  | [], s, s', _, _, h => by cases h; exact hrefl s
  | a :: l, s, s', hI, hp, h => by
    obtain ⟨t, ht, h⟩ := foldlM_cons_some h
    rw [purge_cons l ht] at hp
    cases hs : hidden s a with
    | true =>
      rw [hs, if_pos rfl] at hp
      exact htrans (hhidden a l s t hI hs ht) (unwind_hidden hkeep hhidden hrefl htrans (hkeep a l s t hI ht) hp h)
    | false => rw [hs] at hp; cases hp

/-- The part of a run before its first visible input moves nothing. -/
theorem unwind_first (hkeep : ∀ a l s s', I (a :: l) s → step s a = some s' → I l s')
    (hhidden : ∀ a l s s', I (a :: l) s → hidden s a = true → step s a = some s' → R s s')
    (hrefl : ∀ s, R s s) (htrans : ∀ {s t u}, R s t → R t u → R s u) {b : α} {m : List α} : ∀ {l : List α} {s s' : σ}, I l s →
    purge step hidden s l = b :: m → l.foldlM step s = some s' → ∃ l' t t', I (b :: l') t ∧ R s t ∧ hidden t b = false ∧
      step t b = some t' ∧ purge step hidden t' l' = m ∧ l'.foldlM step t' = some s'
  | [], _, _, _, hp, _ => by cases hp
  | a :: l, s, s', hI, hp, h => by
    obtain ⟨t, ht, hrun⟩ := foldlM_cons_some h
    rw [purge_cons l ht] at hp
    cases hs : hidden s a with
    | true =>
      rw [hs, if_pos rfl] at hp
      obtain ⟨l', u, u', hu, hR, hrest⟩ := unwind_first hkeep hhidden hrefl htrans (hkeep a l s t hI ht) hp hrun
      exact ⟨l', u, u', hu, htrans (hhidden a l s t hI hs ht) hR, hrest⟩
    | false =>
      rw [hs] at hp
      cases hp
      exact ⟨l, s, t, hI, hrefl s, hs, ht, rfl, hrun⟩

/-- Two runs with the same visible inputs end in related states: a hidden step does not leave its class, and a visible
step from related states leads to related states. -/
theorem unwind (hkeep : ∀ a l s s', I (a :: l) s → step s a = some s' → I l s')
    (hhidden : ∀ a l s s', I (a :: l) s → hidden s a = true → step s a = some s' → R s s')
    (hvisible : ∀ a l l' s t s' t', I (a :: l) s → I (a :: l') t → R s t → hidden s a = false → hidden t a = false →
      step s a = some s' → step t a = some t' → R s' t')
    (hrefl : ∀ s, R s s) (hsymm : ∀ {s t}, R s t → R t s) (htrans : ∀ {s t u}, R s t → R t u → R s u) :
    ∀ {l l' : List α} {s t s' t' : σ}, I l s → I l' t → R s t → purge step hidden s l = purge step hidden t l' →
      l.foldlM step s = some s' → l'.foldlM step t = some t' → R s' t' := by
  intro l l' s t s' t' hI hI' hR hp hs ht
  -- the visible inputs decide; the hidden ones before each are skipped on both sides
  generalize hv : purge step hidden s l = v at hp
  induction v generalizing l l' s t with
  | nil =>
    have h1 := unwind_hidden hkeep hhidden hrefl htrans hI hv hs
    have h2 := unwind_hidden hkeep hhidden hrefl htrans hI' hp.symm ht
    exact htrans (hsymm h1) (htrans hR h2)
  | cons a v ih =>
    obtain ⟨m, u, u', hu, hR₁, hf, hstep, hpm, hm⟩ := unwind_first hkeep hhidden hrefl htrans hI hv hs
    obtain ⟨m', w, w', hw, hR₂, hf', hstep', hpm', hm'⟩ := unwind_first hkeep hhidden hrefl htrans hI' hp.symm ht
    have hR' : R u w := htrans (hsymm hR₁) (htrans hR hR₂)
    exact ih (hkeep a m u u' hu hstep) (hkeep a m' w w' hw hstep')
      (hvisible a m m' u w u' w' hu hw hR' hf hf' hstep hstep') hm hm' hpm hpm'.symm

end Unwind

end Machine
