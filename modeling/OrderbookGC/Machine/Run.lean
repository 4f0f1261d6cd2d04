/-
Runs of a machine given by a step function that may fail to return: a run folds the step over a
list of inputs. What one step keeps, and that a step returns, is lifted to whole runs.
-/
import Mathlib.Data.List.Basic
import Mathlib.Tactic.Common

namespace Machine

variable {σ α : Type} {step : σ → α → Option σ}

/-- A run returns and keeps an invariant indexed by the inputs processed so far, when every step
from a state with the invariant does. -/
theorem foldlM_prefix {I : List α → σ → Prop} {l : List α}
    (hstep : ∀ pre a s, pre ++ [a] <+: l → I pre s → ∃ s', step s a = some s' ∧ I (pre ++ [a]) s') {s : σ}
    (h0 : I [] s) : ∃ s', l.foldlM step s = some s' ∧ I l s' := by
  have h : ∀ (post pre : List α) (s : σ), pre ++ post = l → I pre s →
      ∃ s', post.foldlM step s = some s' ∧ I l s' := by
    intro post
    induction post with
    | nil =>
      intro pre s hl hI
      refine ⟨s, rfl, ?_⟩
      rw [← hl, List.append_nil]; exact hI
    | cons a post ih =>
      intro pre s hl hI
      obtain ⟨s₁, h1, hI₁⟩ := hstep pre a s ⟨post, by rw [← hl]; simp⟩ hI
      obtain ⟨s', h2, hI'⟩ := ih (pre ++ [a]) s₁ (by rw [← hl]; simp) hI₁
      refine ⟨s', ?_, hI'⟩
      rw [List.foldlM_cons, h1]; exact h2
  exact h l [] s rfl h0

/-- Every step of the run over the inputs meets the condition, in the state it is taken from. -/
def Along (step : σ → α → Option σ) (C : σ → α → Prop) : σ → List α → Prop
  | _, [] => True
  | s, a :: l => C s a ∧ ∀ s', step s a = some s' → Along step C s' l

instance Along.decidable {C : σ → α → Prop} [∀ s a, Decidable (C s a)] :
    ∀ (l : List α) (s : σ), Decidable (Along step C s l)
  | [], _ => isTrue trivial
  | a :: l, s =>
    match h : step s a with
    | none => decidable_of_iff (C s a) ⟨fun hc => ⟨hc, fun _ h' => by rw [h] at h'; cases h'⟩, And.left⟩
    | some s' =>
      have : Decidable (Along step C s' l) := Along.decidable l s'
      decidable_of_iff (C s a ∧ Along step C s' l)
        ⟨fun hc => ⟨hc.1, fun _ h' => by rw [h] at h'; cases h'; exact hc.2⟩, fun hc => ⟨hc.1, hc.2 s' h⟩⟩

theorem along_true : ∀ {l : List α} {s : σ}, Along step (fun _ _ => True) s l
  | [], _ => trivial
  | _ :: _, _ => ⟨trivial, fun _ _ => along_true⟩

/-- What follows a part of a run whose steps meet the condition is such a run, too. -/
theorem Along.append {C : σ → α → Prop} {l' : List α} {t : σ} : ∀ {l : List α} {s : σ}, Along step C s (l ++ l') →
    l.foldlM step s = some t → Along step C t l'
  | [], _, hC, h => by cases h; exact hC
  | a :: l, s, hC, h => by
    rw [List.foldlM_cons] at h
    obtain ⟨u, hu, h⟩ := Option.bind_eq_some_iff.1 h
    exact (hC.2 u hu).append h

theorem Along.left {C : σ → α → Prop} {l' : List α} : ∀ {l : List α} {s : σ}, Along step C s (l ++ l') → Along step C s l
  | [], _, _ => trivial
  | _ :: _, _, hC => ⟨hC.1, fun u hu => (hC.2 u hu).left⟩

/-- A run whose steps meet the condition returns, when the condition makes a step return and keep an invariant. -/
theorem Along.run {I : σ → Prop} {C : σ → α → Prop} (hstep : ∀ s a, I s → C s a → ∃ s', step s a = some s' ∧ I s') :
    ∀ {l : List α} {s : σ}, Along step C s l → I s → ∃ s', l.foldlM step s = some s' ∧ I s'
  | [], s, _, hI => ⟨s, rfl, hI⟩
  | a :: l, s, hC, hI => by
    obtain ⟨t, ht, hIt⟩ := hstep s a hI hC.1
    obtain ⟨s', h1, h2⟩ := (hC.2 t ht).run hstep hIt
    refine ⟨s', ?_, h2⟩
    rw [List.foldlM_cons, ht]
    exact h1

/-- What a step that always returns keeps under a condition, a run whose steps meet it keeps. -/
theorem Along.foldl {f : σ → α → σ} {I : σ → Prop} {C : σ → α → Prop} (hstep : ∀ s a, I s → C s a → I (f s a))
    {l : List α} {s : σ} (h : Along (fun s a => some (f s a)) C s l) (hs : I s) : I (l.foldl f s) := by
  obtain ⟨s', hrun, hI⟩ := h.run (fun s a hI hC => ⟨f s a, rfl, hstep s a hI hC⟩) hs
  have heq : some (l.foldl f s) = some s' := List.foldlM_pure.symm.trans hrun
  cases heq
  exact hI

/-- A run whose steps meet a condition; the invariant may rest on it, and on how the state was reached. -/
theorem foldlM_along {I : List α → σ → Prop} {C : σ → α → Prop} {l : List α} {s : σ} (hC : Along step C s l)
    (hstep : ∀ pre a t t', pre ++ [a] <+: l → (pre ++ [a]).foldlM step s = some t' → I pre t → C t a →
      step t a = some t' → I (pre ++ [a]) t')
    (hret : ∀ pre a t, I pre t → ∃ t', step t a = some t') (h0 : I [] s) : ∃ s', l.foldlM step s = some s' ∧ I l s' := by
  obtain ⟨s', h1, h2, -, -⟩ := foldlM_prefix (l := l) (s := s)
    (I := fun pre t => I pre t ∧ pre.foldlM step s = some t ∧ ∀ post, pre ++ post = l → Along step C t post)
    (fun pre a t hpre ⟨hI, hrun, hA⟩ => by
      obtain ⟨t', ht⟩ := hret pre a t hI
      obtain ⟨post, hpost⟩ := hpre
      rw [List.append_assoc] at hpost
      obtain ⟨hc, hA'⟩ := hA _ hpost
      have hrun' : (pre ++ [a]).foldlM step s = some t' := by
        rw [List.foldlM_append, hrun]
        show ([a].foldlM step t) = some t'
        rw [List.foldlM_cons, ht]; rfl
      refine ⟨t', ht, hstep pre a t t' ⟨post, by rw [← hpost]; simp⟩ hrun' hI hc ht, hrun', fun post' h => ?_⟩
      rw [List.append_assoc, ← hpost] at h
      have : post' = post := by simpa using h
      exact this ▸ hA' t' ht)
    ⟨h0, rfl, fun post h => by rw [List.nil_append] at h; exact h ▸ hC⟩
  exact ⟨s', h1, h2⟩

/-- What a step can only lose, a run can only lose. -/
theorem of_foldlM {J G : σ → Prop} (hret : ∀ s a, J s → ∃ s', step s a = some s' ∧ J s')
    (hG : ∀ s a s', J s → step s a = some s' → G s' → G s) : ∀ (l : List α) (s : σ), J s →
      (∀ s', l.foldlM step s = some s' → G s') → G s
  | [], s, _, h => h s rfl
  | a :: l, s, hJ, h => by
    obtain ⟨t, ht, hJt⟩ := hret s a hJ
    refine hG s a t hJ ht (of_foldlM hret hG l t hJt fun s' hs' => h s' ?_)
    rw [List.foldlM_cons, ht]
    exact hs'

/-- Where a step keeps a property exactly when it meets a condition, the property holds all along a run exactly when
every step meets the condition. `J` is what makes every step return; `G` is a property of the run's end, and with it of
every state before. -/
theorem forall_prefix_iff_along {J G P : σ → Prop} {C : σ → α → Prop}
    (hret : ∀ s a, J s → ∃ s', step s a = some s' ∧ J s') (hG : ∀ s a s', J s → step s a = some s' → G s' → G s)
    (hP : ∀ s a s', J s → G s' → P s → step s a = some s' → (P s' ↔ C s a)) :
    ∀ (l : List α) (s : σ), J s → (∀ s', l.foldlM step s = some s' → G s') → P s →
      ((∀ pre, pre <+: l → ∀ s', pre.foldlM step s = some s' → P s') ↔ Along step C s l)
  | [], s, _, _, hs => by
    refine ⟨fun _ => trivial, fun _ pre hpre s' h => ?_⟩
    rw [List.prefix_nil.1 hpre] at h
    cases h; exact hs
  | a :: l, s, hJ, hend, hs => by
    obtain ⟨t, ht, hJt⟩ := hret s a hJ
    have hcons : ∀ pre s', (a :: pre).foldlM step s = some s' ↔ pre.foldlM step t = some s' := fun pre s' => by
      rw [List.foldlM_cons, ht]; rfl
    have hend' : ∀ s', l.foldlM step t = some s' → G s' := fun s' h => hend s' ((hcons l s').2 h)
    have hGt : G t := of_foldlM hret hG l t hJt hend'
    have ih := forall_prefix_iff_along hret hG hP l t hJt hend'
    constructor
    · intro h
      have hPt : P t := h [a] (by simp) t ((hcons [] t).2 rfl)
      refine ⟨(hP s a t hJ hGt hs ht).1 hPt, fun t' ht' => ?_⟩
      cases ht.symm.trans ht'
      exact (ih hPt).1 fun pre hpre s' hrun => h (a :: pre) (List.cons_prefix_cons.2 ⟨rfl, hpre⟩) s' ((hcons pre s').2 hrun)
    · rintro ⟨hc, hA⟩ pre hpre s' hrun
      have hPt : P t := (hP s a t hJ hGt hs ht).2 hc
      cases pre with
      | nil => cases hrun; exact hs
      | cons a' pre =>
        obtain ⟨rfl, hpre'⟩ := List.cons_prefix_cons.1 hpre
        exact (ih hPt).2 (hA t ht) pre hpre' s' ((hcons pre s').1 hrun)

/-- A run over two lists is a run over the first followed by a run over the second. -/
theorem foldlM_append_some {l l' : List α} {s s' : σ} :
    (l ++ l').foldlM step s = some s' ↔ ∃ t, l.foldlM step s = some t ∧ l'.foldlM step t = some s' := by
  rw [List.foldlM_append]
  exact Option.bind_eq_some_iff

end Machine
