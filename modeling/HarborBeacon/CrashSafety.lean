import HarborBeacon.FileProgram

/-!
Programs that may be cut short. Whoever runs a program can fail or die between any two of its
writes and leaves the state that was reached; what is claimed of a program therefore speaks of
every state that it passes through, and of the state in which it ends.
-/

namespace HarborBeacon.FileProgram

variable {σ ε α β : Type}

/-- The states that a program passes through when it runs alone, the first and the last
included. -/
def visits : FileProgram σ ε α → σ → List σ
  | done _, s => [s]
  | loadFile next, s => visits (next s) s
  | saveFile file next, s => s :: visits next file
  | observe _ next, s => visits next s

/-- Every state that the program passes through satisfies `C`, and where it ends, result and
state satisfy `Q`. -/
def Safely (p : FileProgram σ ε α) (s : σ) (C : σ → Prop) (Q : α → σ → Prop) : Prop :=
  (∀ s' ∈ p.visits s, C s') ∧ Q (p.exec s).result (p.exec s).file

variable {s : σ} {C : σ → Prop} {p : FileProgram σ ε α} {x : ExceptT String (FileProgram σ ε) α}
  {Q : Except String α → σ → Prop} {f : α → ExceptT String (FileProgram σ ε) β} {a : α} {s₁ : σ}

theorem Safely.mono {C' : σ → Prop} {Q Q' : α → σ → Prop} (h : Safely p s C Q)
    (hC : ∀ s', C s' → C' s') (hQ : ∀ a s', Q a s' → Q' a s') :
    Safely p s C' Q' :=
  ⟨fun s' hs' => hC s' (h.1 s' hs'), hQ _ _ h.2⟩

theorem exec_file_mem_visits (p : FileProgram σ ε α) (s : σ) :
    (p.exec s).file ∈ p.visits s := by
  induction p generalizing s with
  | done result => exact List.mem_singleton.mpr rfl
  | loadFile next ih => exact ih s s
  | saveFile file next ih => exact List.mem_cons_of_mem _ (ih file)
  | observe event next ih => exact ih s

theorem Safely.last {Q : α → σ → Prop} (h : Safely p s C Q) :
    Safely p s C fun a s' => Q a s' ∧ C s' :=
  ⟨h.1, h.2, h.1 _ (exec_file_mem_visits p s)⟩

theorem safely_pure {Q : α → σ → Prop} (hC : C s) (hQ : Q a s) :
    Safely (pure a : FileProgram σ ε α) s C Q := by
  refine ⟨?_, hQ⟩
  intro s' hs'
  rw [List.mem_singleton.mp hs']
  exact hC

theorem safely_read {f : σ → α} {Q : α → σ → Prop} (hC : C s) (hQ : Q (f s) s) :
    Safely (read f : FileProgram σ ε α) s C Q := by
  refine ⟨?_, hQ⟩
  intro s' hs'
  rw [List.mem_singleton.mp hs']
  exact hC

def modify (f : σ → σ) : FileProgram σ ε Unit :=
  loadFile fun s => saveFile (f s) (done ())

theorem safely_modify {f : σ → σ} {Q : Unit → σ → Prop} (hC : C s) (hC' : C (f s))
    (hQ : Q () (f s)) : Safely (modify f : FileProgram σ ε Unit) s C Q := by
  refine ⟨?_, hQ⟩
  intro s' hs'
  rcases List.mem_cons.mp hs' with rfl | hlast
  · exact hC
  · rw [List.mem_singleton.mp hlast]
    exact hC'

theorem mem_visits_bind {f : α → FileProgram σ ε β} {s s' : σ} (h : s' ∈ (p >>= f).visits s) :
    s' ∈ p.visits s ∨ s' ∈ (f (p.exec s).result).visits (p.exec s).file := by
  change s' ∈ (p.bind f).visits s at h
  induction p generalizing s with
  | done result => exact .inr h
  | loadFile next ih => exact ih s h
  | saveFile file next ih =>
      rcases List.mem_cons.mp h with rfl | hrest
      · exact .inl List.mem_cons_self
      · exact (ih hrest).imp_left (List.mem_cons_of_mem _)
  | observe event next ih => exact ih h

theorem safely_bind {f : α → FileProgram σ ε β} {R : α → σ → Prop} {Q : β → σ → Prop}
    (hp : Safely p s C R) (hf : ∀ a s', R a s' → Safely (f a) s' C Q) :
    Safely (p >>= f) s C Q := by
  have hnext := hf _ _ hp.2
  refine ⟨?_, ?_⟩
  · intro s' hs'
    rcases mem_visits_bind hs' with hfirst | hsecond
    · exact hp.1 s' hfirst
    · exact hnext.1 s' hsecond
  · rw [exec_bind, Outcome.andThen]
    exact hnext.2

theorem safely_run_pure (hC : C s) (hQ : Q (.ok a) s) :
    Safely (pure a : ExceptT String (FileProgram σ ε) α).run s C Q :=
  safely_pure hC hQ

theorem safely_run_throw {message : String} (hC : C s) (hQ : Q (.error message) s) :
    Safely (throw message : ExceptT String (FileProgram σ ε) α).run s C Q :=
  safely_pure hC hQ

theorem safely_run_bind {R : Except String α → σ → Prop} {Q : Except String β → σ → Prop}
    (hx : Safely x.run s C R) (hf : ∀ a s', R (.ok a) s' → Safely (f a).run s' C Q)
    (herror : ∀ message s', R (.error message) s' → Q (.error message) s') :
    Safely (x >>= f).run s C Q := by
  rw [ExceptT.run_bind]
  refine safely_bind hx.last ?_
  rintro (message | a) s' ⟨hR, hC⟩
  · exact safely_pure hC (herror message s' hR)
  · exact hf a s' hR

theorem safely_run_lift (hp : Safely p s C fun a s' => Q (.ok a) s') :
    Safely (ExceptT.lift p : ExceptT String (FileProgram σ ε) α).run s C Q :=
  safely_bind hp.last fun _ _ h => safely_pure h.2 h.1

theorem safely_run_bind_ok {Q : Except String β → σ → Prop}
    (hx : Safely x.run s C fun r s' => r = .ok a ∧ s' = s₁) (hf : Safely (f a).run s₁ C Q) :
    Safely (x >>= f).run s C Q := by
  refine safely_run_bind hx ?_ ?_
  · rintro b s' ⟨hb, rfl⟩
    rw [Except.ok.inj hb]
    exact hf
  · rintro message s' ⟨hb, -⟩
    cases hb

theorem safely_run_adapt_ok {f : String → String}
    (hx : Safely x.run s C fun r s' => r = .ok a ∧ s' = s₁) :
    Safely (x.adapt f).run s C fun r s' => r = .ok a ∧ s' = s₁ := by
  have hadapt : (x.adapt f).run = x.run >>= fun r => pure (r.mapError f) :=
    (bind_pure_comp (Except.mapError f) x.run).symm
  rw [hadapt]
  refine safely_bind hx.last ?_
  rintro r s' ⟨⟨rfl, hs'⟩, hC⟩
  exact safely_pure hC ⟨rfl, hs'⟩

section Saves

/-- Whatever file it loads, every file that the program saves satisfies `P`, and its result
satisfies `R`. -/
inductive Saves (P : σ → Prop) (R : α → Prop) : FileProgram σ ε α → Prop where
  | done {result : α} (h : R result) : Saves P R (done result)
  | loadFile {next : σ → FileProgram σ ε α} (h : ∀ s, Saves P R (next s)) :
      Saves P R (loadFile next)
  | saveFile {file : σ} {next : FileProgram σ ε α} (h : P file) (hnext : Saves P R next) :
      Saves P R (saveFile file next)
  | observe {event : ε} {next : FileProgram σ ε α} (h : Saves P R next) :
      Saves P R (observe event next)

variable {P : σ → Prop} {R : α → Prop} {R' : β → Prop}

theorem Saves.result {p : FileProgram σ ε α} (h : Saves P R p) (s : σ) : R (p.exec s).result := by
  induction h generalizing s with
  | done h => exact h
  | loadFile _ ih => exact ih s s
  | saveFile _ _ ih => exact ih _
  | observe _ ih => exact ih s

theorem Saves.file {p : FileProgram σ ε α} (h : Saves P R p) (s : σ) :
    ∀ s' ∈ p.visits s, s' = s ∨ P s' := by
  induction h generalizing s with
  | done _ =>
      intro s' hs'
      exact Or.inl (List.mem_singleton.mp hs')
  | loadFile _ ih => exact ih s s
  | saveFile hsaved _ ih =>
      intro s' hs'
      rcases List.mem_cons.mp hs' with rfl | hrest
      · exact Or.inl rfl
      · rcases ih _ s' hrest with rfl | hP
        · exact Or.inr hsaved
        · exact Or.inr hP
  | observe _ ih => exact ih s

theorem saves_bind {p : FileProgram σ ε α} {f : α → FileProgram σ ε β} (hp : Saves P R p)
    (hf : ∀ a, R a → Saves P R' (f a)) : Saves P R' (p >>= f) := by
  induction hp with
  | done h => exact hf _ h
  | loadFile _ ih => exact .loadFile ih
  | saveFile h _ ih => exact .saveFile h ih
  | observe _ ih => exact .observe ih

theorem saves_run_bind {x : ExceptT String (FileProgram σ ε) α}
    {f : α → ExceptT String (FileProgram σ ε) β}
    (hx : Saves P (fun result => ∀ a, result = .ok a → R a) x.run)
    (hf : ∀ a, R a → Saves P (fun result => ∀ b, result = .ok b → R' b) (f a).run) :
    Saves P (fun result => ∀ b, result = .ok b → R' b) (x >>= f).run := by
  rw [ExceptT.run_bind]
  refine saves_bind hx ?_
  rintro (message | a) h
  · refine .done ?_
    intro b hb
    cases hb
  · exact hf a (h a rfl)

end Saves

end HarborBeacon.FileProgram
