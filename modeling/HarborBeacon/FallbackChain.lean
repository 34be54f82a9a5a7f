import Mathlib.Data.List.Basic

/-!
Alternatives tried in order until one of them answers. An alternative that is not admitted
in the state reached so far is passed over, one that fails leaves its error behind, and the
first that answers ends the run.
-/

namespace HarborBeacon.FallbackChain

variable {α σ ε ρ : Type*}

/-- `Chain admits run alternatives s failures answer s'` describes a run over the
alternatives from `s` to `s'`: those that failed with their errors, and the one that
answered, if any. -/
inductive Chain (admits : α → σ → Bool) (run : α → σ → Except ε ρ × σ) :
    List α → σ → List (α × ε) → Option (α × ρ) → σ → Prop where
  | exhausted (s : σ) : Chain admits run [] s [] none s
  | passed {a : α} {rest : List α} {s s' : σ} {failures : List (α × ε)}
      {answer : Option (α × ρ)} (hpassed : admits a s = false)
      (hrest : Chain admits run rest s failures answer s') :
      Chain admits run (a :: rest) s failures answer s'
  | answered {a : α} {rest : List α} {s s' : σ} {r : ρ} (hadmits : admits a s = true)
      (hrun : run a s = (.ok r, s')) :
      Chain admits run (a :: rest) s [] (some (a, r)) s'
  | failed {a : α} {rest : List α} {s t s' : σ} {e : ε} {failures : List (α × ε)}
      {answer : Option (α × ρ)} (hadmits : admits a s = true)
      (hrun : run a s = (.error e, t)) (hrest : Chain admits run rest t failures answer s') :
      Chain admits run (a :: rest) s ((a, e) :: failures) answer s'

def tried (failures : List (α × ε)) (answer : Option (α × ρ)) : List α :=
  failures.map Prod.fst ++ answer.toList.map Prod.fst

def lastError (failures : List (α × ε)) (known : Option ε) : Option ε :=
  failures.foldl (fun _ failure => some failure.2) known

theorem lastError_append (failures later : List (α × ε)) (known : Option ε) :
    lastError (failures ++ later) known = lastError later (lastError failures known) :=
  List.foldl_append

namespace Chain

variable {admits : α → σ → Bool} {run : α → σ → Except ε ρ × σ}
  {alternatives others : List α} {s t s' : σ} {failures later : List (α × ε)}
  {answer : Option (α × ρ)} {found : α × ρ}

theorem append (hfirst : Chain admits run alternatives s failures none t)
    (hnext : Chain admits run others t later answer s') :
    Chain admits run (alternatives ++ others) s (failures ++ later) answer s' := by
  generalize hnone : (none : Option (α × ρ)) = missing at hfirst
  induction hfirst with
  | exhausted s => exact hnext
  | passed hpassed _ ih => exact .passed hpassed (ih hnext hnone)
  | answered hadmits hrun => cases hnone
  | failed hadmits hrun _ ih => exact .failed hadmits hrun (ih hnext hnone)

theorem append_of_answered (hfirst : Chain admits run alternatives s failures (some found) s') :
    Chain admits run (alternatives ++ others) s failures (some found) s' := by
  generalize hsome : some found = answer at hfirst
  induction hfirst with
  | exhausted s => cases hsome
  | passed hpassed _ ih => exact .passed hpassed (ih hsome)
  | answered hadmits hrun => exact .answered hadmits hrun
  | failed hadmits hrun _ ih => exact .failed hadmits hrun (ih hsome)

theorem tried_sublist (h : Chain admits run alternatives s failures answer s') :
    (tried failures answer).Sublist alternatives := by
  induction h with
  | exhausted s => exact List.Sublist.slnil
  | passed _ _ ih => exact ih.cons _
  | answered _ _ => exact (List.nil_sublist _).cons_cons _
  | failed _ _ _ ih => exact ih.cons_cons _

theorem mem_of_answered (h : Chain admits run alternatives s failures (some found) s') :
    found.1 ∈ alternatives :=
  h.tried_sublist.subset (List.mem_append_right _ (by simp))

end Chain

end HarborBeacon.FallbackChain
