import Mathlib.Data.List.Induction

/-!
Programs over one shared file. A program reads the whole file, writes the whole file
and reports observations; reading and writing are its only atomic steps. Run alone, a
program computes an `Outcome`; two programs run together step by step in the order
given by a schedule.
-/

namespace HarborBeacon

/-- A program over a file of type `σ` that reports observations of type `ε` and returns
a value of type `α`. -/
inductive FileProgram (σ ε α : Type) : Type where
  | done (result : α)
  | loadFile (next : σ → FileProgram σ ε α)
  | saveFile (file : σ) (next : FileProgram σ ε α)
  | observe (event : ε) (next : FileProgram σ ε α)

/-- What a program leaves behind when it runs without interference. -/
@[ext] structure Outcome (σ ε α : Type) where
  file : σ
  log : List ε
  result : α

namespace FileProgram

variable {σ ε α β : Type} {x : ExceptT String (FileProgram σ ε) α} {P : List ε → ε → Prop}
  {p : FileProgram σ ε α} {s s' : σ} {a : α}

def bind : FileProgram σ ε α → (α → FileProgram σ ε β) → FileProgram σ ε β
  | done result, f => f result
  | loadFile next, f => loadFile fun s => bind (next s) f
  | saveFile file next, f => saveFile file (bind next f)
  | observe event next, f => observe event (bind next f)

instance : Monad (FileProgram σ ε) where
  pure := done
  bind := bind

/-- Run a program alone. -/
def exec : FileProgram σ ε α → σ → Outcome σ ε α
  | done result, s => ⟨s, [], result⟩
  | loadFile next, s => exec (next s) s
  | saveFile file next, _ => exec next file
  | observe event next, s =>
      let o := exec next s
      ⟨o.file, event :: o.log, o.result⟩

/-- Continue after an earlier outcome. -/
def Outcome.andThen (o : Outcome σ ε α) (f : α → σ → Outcome σ ε β) : Outcome σ ε β :=
  let o' := f o.result o.file
  ⟨o'.file, o.log ++ o'.log, o'.result⟩

@[simp] theorem exec_done (result : α) (s : σ) :
    (done result : FileProgram σ ε α).exec s = ⟨s, [], result⟩ := rfl

@[simp] theorem exec_pure (result : α) (s : σ) :
    (pure result : FileProgram σ ε α).exec s = ⟨s, [], result⟩ := rfl

theorem exec_bind (p : FileProgram σ ε α) (f : α → FileProgram σ ε β) (s : σ) :
    (p >>= f).exec s = Outcome.andThen (p.exec s) fun a s' => (f a).exec s' := by
  change (p.bind f).exec s = _
  induction p generalizing s with
  | done result => simp [bind, exec, Outcome.andThen]
  | loadFile next ih => simpa [bind, exec] using ih s s
  | saveFile file next ih => simpa [bind, exec] using ih file
  | observe event next ih => simp [bind, exec, ih, Outcome.andThen]

theorem bind_done (p : FileProgram σ ε α) : p.bind done = p := by
  induction p with
  | done result => rfl
  | loadFile next ih => exact congrArg loadFile (funext ih)
  | saveFile file next ih => exact congrArg (saveFile file) ih
  | observe event next ih => exact congrArg (observe event) ih

theorem bind_bind {γ : Type} (p : FileProgram σ ε α) (f : α → FileProgram σ ε β)
    (g : β → FileProgram σ ε γ) : (p.bind f).bind g = p.bind fun a => (f a).bind g := by
  induction p with
  | done result => rfl
  | loadFile next ih => exact congrArg loadFile (funext ih)
  | saveFile file next ih => exact congrArg (saveFile file) ih
  | observe event next ih => exact congrArg (observe event) ih

instance : LawfulMonad (FileProgram σ ε) :=
  LawfulMonad.mk' _ bind_done (fun _ _ => rfl) bind_bind

/-- One `load_file` whose content is only read. -/
def read (f : σ → α) : FileProgram σ ε α :=
  loadFile fun s => done (f s)

/-- One `load_file`, a computation on the content, and one `save_file` unless the
computation fails. -/
def update (f : σ → Except String (σ × α)) : FileProgram σ ε (Except String α) :=
  loadFile fun s =>
    match f s with
    | .ok (s', a) => saveFile s' (done (.ok a))
    | .error message => done (.error message)

def report (event : ε) : FileProgram σ ε Unit :=
  observe event (done ())

@[simp] theorem exec_read (f : σ → α) (s : σ) :
    (read f : FileProgram σ ε α).exec s = ⟨s, [], f s⟩ := rfl

@[simp] theorem exec_report (event : ε) (s : σ) :
    (report event : FileProgram σ ε Unit).exec s = ⟨s, [event], ()⟩ := rfl

theorem exec_update (f : σ → Except String (σ × α)) (s : σ) :
    (update f : FileProgram σ ε (Except String α)).exec s =
      match f s with
      | .ok (s', a) => ⟨s', [], .ok a⟩
      | .error message => ⟨s, [], .error message⟩ := by
  simp only [update, exec]
  cases f s <;> rfl

/-- Continue after an earlier outcome unless it failed. -/
def Outcome.andThenOk (o : Outcome σ ε (Except String α))
    (f : α → σ → Outcome σ ε (Except String β)) : Outcome σ ε (Except String β) :=
  match o.result with
  | .ok a =>
      let o' := f a o.file
      ⟨o'.file, o.log ++ o'.log, o'.result⟩
  | .error message => ⟨o.file, o.log, .error message⟩

@[simp] theorem exec_run_pure (a : α) (s : σ) :
    (pure a : ExceptT String (FileProgram σ ε) α).run.exec s = ⟨s, [], .ok a⟩ := rfl

@[simp] theorem exec_run_throw (message : String) (s : σ) :
    (throw message : ExceptT String (FileProgram σ ε) α).run.exec s =
      ⟨s, [], .error message⟩ := rfl

theorem exec_run_bind (x : ExceptT String (FileProgram σ ε) α)
    (f : α → ExceptT String (FileProgram σ ε) β) (s : σ) :
    (x >>= f).run.exec s =
      Outcome.andThenOk (x.run.exec s) fun a s' => (f a).run.exec s' := by
  rw [ExceptT.run_bind, exec_bind, Outcome.andThen, Outcome.andThenOk]
  cases (x.run.exec s).result with
  | ok a => rfl
  | error message => simp

theorem exec_bind_of_exec (h : p.exec s = ⟨s', [], a⟩) (f : α → FileProgram σ ε β) :
    (p >>= f).exec s = (f a).exec s' := by
  rw [exec_bind, h]
  rfl

theorem exec_run_bind_of_ok (h : x.run.exec s = ⟨s', [], .ok a⟩)
    (f : α → ExceptT String (FileProgram σ ε) β) :
    (x >>= f).run.exec s = (f a).run.exec s' := by
  rw [exec_run_bind, h]
  rfl

theorem exec_run_bind_of_error {message : String} (h : x.run.exec s = ⟨s', [], .error message⟩)
    (f : α → ExceptT String (FileProgram σ ε) β) :
    (x >>= f).run.exec s = ⟨s', [], .error message⟩ := by
  rw [exec_run_bind, h]
  rfl

theorem exec_run_lift (h : p.exec s = ⟨s', [], a⟩) :
    (ExceptT.lift p : ExceptT String (FileProgram σ ε) α).run.exec s = ⟨s', [], .ok a⟩ :=
  exec_bind_of_exec h _

theorem exec_run_mapM {f : α → ExceptT String (FileProgram σ ε) β} {g : α → β} {s : σ}
    {items : List α} (h : ∀ a ∈ items, (f a).run.exec s = ⟨s, [], .ok (g a)⟩) :
    (items.mapM f).run.exec s = ⟨s, [], .ok (items.map g)⟩ := by
  induction items with
  | nil => rfl
  | cons a rest ih =>
      rw [List.forall_mem_cons] at h
      rw [List.mapM_cons]
      refine (exec_run_bind_of_ok h.1 _).trans ?_
      exact exec_run_bind_of_ok (ih h.2) _

section Triples

/-- `Triple P p Q`: from a history and a file that satisfy `P`, the program `p`, run
alone, ends with a result, a history and a file that satisfy `Q`. -/
def Triple (P : List ε → σ → Prop) (p : FileProgram σ ε α)
    (Q : α → List ε → σ → Prop) : Prop :=
  ∀ log s, P log s → Q (p.exec s).result (log ++ (p.exec s).log) (p.exec s).file

variable {f : α → ExceptT String (FileProgram σ ε) β} {x : ExceptT String (FileProgram σ ε) α}
  {p : FileProgram σ ε α} {P : List ε → σ → Prop}

theorem triple_bind {R : α → List ε → σ → Prop} {Q : β → List ε → σ → Prop}
    {f : α → FileProgram σ ε β} (hp : Triple P p R) (hf : ∀ a, Triple (R a) (f a) Q) :
    Triple P (p >>= f) Q := by
  intro log s h
  have hq := hf _ _ _ (hp log s h)
  simpa [exec_bind, Outcome.andThen, List.append_assoc] using hq

theorem triple_run_bind {R : Except String α → List ε → σ → Prop}
    {Q : Except String β → List ε → σ → Prop} (hx : Triple P x.run R)
    (hf : ∀ a, Triple (R (.ok a)) (f a).run Q)
    (herror : ∀ message log s, R (.error message) log s → Q (.error message) log s) :
    Triple P (x >>= f).run Q := by
  intro log s h
  have hr := hx log s h
  rw [exec_run_bind, Outcome.andThenOk]
  cases hresult : (x.run.exec s).result with
  | ok a =>
      rw [hresult] at hr
      simpa [List.append_assoc] using hf a _ _ hr
  | error message =>
      rw [hresult] at hr
      simpa using herror message _ _ hr

/-- The program keeps an invariant of the history and the file. -/
def Preserves (I : List ε → σ → Prop) (p : FileProgram σ ε α) : Prop :=
  Triple I p fun _ => I

variable {I : List ε → σ → Prop}

theorem preserves_pure (a : α) : Preserves I (pure a : FileProgram σ ε α) := by
  intro log s h
  simpa using h

theorem preserves_read (f : σ → α) : Preserves I (read f : FileProgram σ ε α) := by
  intro log s h
  simpa using h

theorem preserves_report {event : ε} (h : ∀ log s, I log s → I (log ++ [event]) s) :
    Preserves I (report event : FileProgram σ ε Unit) := by
  intro log s hi
  simpa using h log s hi

theorem preserves_bind {f : α → FileProgram σ ε β} (hp : Preserves I p)
    (hf : ∀ a, Preserves I (f a)) : Preserves I (p >>= f) :=
  triple_bind hp hf

theorem preserves_run_pure (a : α) :
    Preserves I (pure a : ExceptT String (FileProgram σ ε) α).run :=
  preserves_pure (Except.ok a)

theorem preserves_run_throw (message : String) :
    Preserves I (throw message : ExceptT String (FileProgram σ ε) α).run :=
  preserves_pure (Except.error message)

theorem preserves_run_bind (hx : Preserves I x.run) (hf : ∀ a, Preserves I (f a).run) :
    Preserves I (x >>= f).run :=
  triple_run_bind hx hf fun _ _ _ h => h

theorem preserves_run_lift (hp : Preserves I p) :
    Preserves I (ExceptT.lift p : ExceptT String (FileProgram σ ε) α).run :=
  preserves_bind hp fun a => preserves_pure (Except.ok a)

end Triples

section Frames

variable {γ : Type} {p : FileProgram σ ε α} {f : σ → γ}

/-- The program reports nothing and leaves the part `f` of the file as it is. -/
def Keeps (f : σ → γ) (p : FileProgram σ ε α) : Prop :=
  ∀ s, f (p.exec s).file = f s ∧ (p.exec s).log = []

theorem keeps_pure (f : σ → γ) (a : α) : Keeps f (pure a : FileProgram σ ε α) :=
  fun _ => ⟨rfl, rfl⟩

theorem keeps_read (f : σ → γ) (g : σ → α) : Keeps f (read g : FileProgram σ ε α) :=
  fun _ => ⟨rfl, rfl⟩

theorem keeps_bind {q : α → FileProgram σ ε β} (hp : Keeps f p) (hq : ∀ a, Keeps f (q a)) :
    Keeps f (p >>= q) := by
  intro s
  obtain ⟨hfile, hlog⟩ := hp s
  obtain ⟨hfile', hlog'⟩ := hq (p.exec s).result (p.exec s).file
  rw [exec_bind, Outcome.andThen]
  exact ⟨hfile'.trans hfile, by simp only [hlog, hlog', List.append_nil]⟩

theorem keeps_update {g : σ → Except String (σ × α)} (h : ∀ s s' a, g s = .ok (s', a) → f s' = f s)
    :
    Keeps f (update g : FileProgram σ ε (Except String α)) := by
  intro s
  rw [exec_update]
  cases hg : g s with
  | error message => exact ⟨rfl, rfl⟩
  | ok pair => exact ⟨h s pair.1 pair.2 hg, rfl⟩

theorem keeps_run_pure (f : σ → γ) (a : α) :
    Keeps f (pure a : ExceptT String (FileProgram σ ε) α).run :=
  fun _ => ⟨rfl, rfl⟩

theorem keeps_run_throw (f : σ → γ) (message : String) :
    Keeps f (throw message : ExceptT String (FileProgram σ ε) α).run :=
  fun _ => ⟨rfl, rfl⟩

theorem keeps_run_bind {x : ExceptT String (FileProgram σ ε) α}
    {g : α → ExceptT String (FileProgram σ ε) β} (hx : Keeps f x.run) (hg : ∀ a, Keeps f (g a).run) :
    Keeps f (x >>= g).run := by
  intro s
  obtain ⟨hfile, hlog⟩ := hx s
  rw [exec_run_bind, Outcome.andThenOk]
  cases (x.run.exec s).result with
  | error message => exact ⟨hfile, hlog⟩
  | ok a =>
      obtain ⟨hfile', hlog'⟩ := hg a (x.run.exec s).file
      exact ⟨hfile'.trans hfile, by simp only [hlog, hlog', List.append_nil]⟩

theorem keeps_run_lift (hp : Keeps f p) :
    Keeps f (ExceptT.lift p : ExceptT String (FileProgram σ ε) α).run :=
  keeps_bind hp fun a => keeps_pure f (Except.ok a)

theorem Keeps.preserves (hp : Keeps f p) (P : List ε → γ → Prop) :
    Preserves (fun log s => P log (f s)) p := by
  intro log s h
  obtain ⟨hfile, hlog⟩ := hp s
  simpa only [hfile, hlog, List.append_nil] using h

end Frames

/-- Every event of the history stands in the given relation to what came before it. -/
def EachEvent (P : List ε → ε → Prop) (log : List ε) : Prop :=
  ∀ before event after, log = before ++ event :: after → P before event

theorem eachEvent_nil (P : List ε → ε → Prop) : EachEvent P [] := by
  intro before event after h
  simp at h

theorem eachEvent_concat {log : List ε} {event : ε} :
    EachEvent P (log ++ [event]) ↔ EachEvent P log ∧ P log event := by
  constructor
  · intro h
    refine ⟨fun before e after heq => h before e (after ++ [event]) ?_, h log event [] rfl⟩
    rw [heq, List.append_assoc, List.cons_append]
  · rintro ⟨hlog, hevent⟩ before e after heq
    rcases List.eq_nil_or_concat after with rfl | ⟨after, last, rfl⟩
    · obtain ⟨rfl, hlast⟩ := List.append_inj' heq rfl
      cases hlast
      exact hevent
    · rw [List.concat_eq_append, ← List.cons_append, ← List.append_assoc] at heq
      obtain ⟨hlog', -⟩ := List.append_inj' heq rfl
      exact hlog before e after hlog'

theorem EachEvent.of_append {log log' : List ε} (h : EachEvent P (log ++ log')) :
    EachEvent P log := by
  intro before event after heq
  refine h before event (after ++ log') ?_
  rw [heq, List.append_assoc, List.cons_append]

section Schedules

/-- The two workers that share the file. -/
inductive Worker where
  | first
  | second
deriving DecidableEq

def Worker.other : Worker → Worker
  | .first => .second
  | .second => .first

@[simp] theorem Worker.other_ne (w : Worker) : w.other ≠ w := by
  cases w <;> decide

@[simp] theorem Worker.other_other (w : Worker) : w.other.other = w := by
  cases w <;> rfl

theorem Worker.eq_or_eq_other (v w : Worker) : v = w ∨ v = w.other := by
  cases v <;> cases w <;> decide

def stepProgram : FileProgram σ ε α → σ → FileProgram σ ε α × σ × List ε
  | done result, s => (done result, s, [])
  | loadFile next, s => (next s, s, [])
  | saveFile file next, _ => (next, file, [])
  | observe event next, s => (next, s, [event])

/-- The shared file, what each worker still has to do, and what was reported so far. -/
structure Config (σ ε α : Type) where
  file : σ
  program : Worker → FileProgram σ ε α
  log : List ε

def Config.step (c : Config σ ε α) (w : Worker) : Config σ ε α where
  file := (stepProgram (c.program w) c.file).2.1
  program := Function.update c.program w (stepProgram (c.program w) c.file).1
  log := c.log ++ (stepProgram (c.program w) c.file).2.2

def Config.run (c : Config σ ε α) (schedule : List Worker) : Config σ ε α :=
  schedule.foldl Config.step c

@[simp] theorem Config.run_nil (c : Config σ ε α) : c.run [] = c := rfl

@[simp] theorem Config.run_append (c : Config σ ε α) (xs ys : List Worker) :
    c.run (xs ++ ys) = (c.run xs).run ys :=
  List.foldl_append

theorem Config.run_concat (c : Config σ ε α) (schedule : List Worker) (w : Worker) :
    c.run (schedule ++ [w]) = (c.run schedule).step w := by
  simp [Config.run]

@[simp] theorem Config.step_program_other (c : Config σ ε α) (w : Worker) :
    (c.step w).program w.other = c.program w.other := by
  simp [Config.step]

def rewrite (f : σ → σ) (result : α) : FileProgram σ ε α :=
  loadFile fun s => saveFile (f s) (done result)

/-- An order of the four steps of two rewrites. -/
def IsInterleaving (schedule : List Worker) : Prop :=
  ∀ w, schedule.count w = 2

/-- One worker is done before the other one starts. -/
def Serial (schedule : List Worker) : Prop :=
  ∃ w : Worker, schedule = [w, w, w.other, w.other]

def lastSaver (schedule : List Worker) : Worker :=
  schedule.getLast?.getD .first

variable {R : α → Prop} {p : FileProgram σ ε α} {schedule : List Worker} {w : Worker}

theorem interleaving_cases (h : IsInterleaving schedule) :
    ∃ w : Worker, schedule = [w, w, w.other, w.other] ∨ schedule = [w, w.other, w.other, w] ∨
      schedule = [w, w.other, w, w.other] := by
  have hfirst := h .first
  have hsecond := h .second
  have hlength : schedule.length = 4 := by
    rw [List.length_eq_countP_add_countP (· == Worker.first)]
    have hrest : schedule.countP (fun w => ¬ (w == Worker.first) = true) =
        schedule.count .second := by
      refine List.countP_congr fun w _ => ?_
      cases w <;> decide
    rw [hrest, hsecond]
    exact congrArg (· + 2) hfirst
  match schedule, hlength with
  | [a, b, c, d], _ =>
      refine ⟨a, ?_⟩
      cases a <;> cases b <;> cases c <;> cases d <;> revert hfirst hsecond <;> decide

def rewriters (f : Worker → σ → σ) (result : α) (s : σ) : Config σ ε α where
  file := s
  program := fun w => rewrite (f w) result
  log := []

theorem rewriters_run_file (f : Worker → σ → σ) (result : α) (s : σ) (h : IsInterleaving schedule) :
    (Serial schedule ∧ ((rewriters f result s : Config σ ε α).run schedule).file =
        f (lastSaver schedule) (f (lastSaver schedule).other s)) ∨
      (¬ Serial schedule ∧ ((rewriters f result s : Config σ ε α).run schedule).file =
        f (lastSaver schedule) s) := by
  obtain ⟨w, rfl | rfl | rfl⟩ := interleaving_cases h
  · exact Or.inl ⟨⟨w, rfl⟩, by cases w <;> rfl⟩
  · refine Or.inr ⟨?_, by cases w <;> rfl⟩
    rintro ⟨v, hv⟩
    cases v <;> cases w <;> cases hv
  · refine Or.inr ⟨?_, by cases w <;> rfl⟩
    rintro ⟨v, hv⟩
    cases v <;> cases w <;> cases hv

/-- How worker `w` would end if it went on alone from here. -/
def Config.outlook (c : Config σ ε α) (w : Worker) : Outcome σ ε α :=
  let o := (c.program w).exec c.file
  ⟨o.file, c.log ++ o.log, o.result⟩

theorem Config.outlook_step (c : Config σ ε α) (w : Worker) :
    (c.step w).outlook w = c.outlook w := by
  simp only [Config.outlook, Config.step, Function.update_self]
  cases c.program w with
  | done result => simp [stepProgram]
  | loadFile next => simp [stepProgram, exec]
  | saveFile file next => simp [stepProgram, exec]
  | observe event next => simp [stepProgram, exec]

/-- A program that can still read the file but neither writes it nor reports anything, and
whose results all satisfy `R` as long as the files that it reads satisfy `A`. -/
inductive ReadOnly (A : σ → Prop) (R : α → Prop) : FileProgram σ ε α → Prop where
  | done (result : α) (h : R result) : ReadOnly A R (done result)
  | loadFile (next : σ → FileProgram σ ε α) (h : ∀ s, A s → ReadOnly A R (next s)) :
      ReadOnly A R (loadFile next)

variable {A : σ → Prop}

theorem ReadOnly.step (h : ReadOnly A R p) {s : σ} (hs : A s) :
    ReadOnly A R (stepProgram p s).1 ∧ (stepProgram p s).2 = (s, []) := by
  cases h with
  | done result h => exact ⟨.done result h, rfl⟩
  | loadFile next h => exact ⟨h s hs, rfl⟩

theorem readOnly_read {f : σ → α} (h : ∀ s, A s → R (f s)) :
    ReadOnly A R (read f : FileProgram σ ε α) :=
  .loadFile _ fun s hs => .done _ (h s hs)

theorem readOnly_bind {R' : β → Prop} {f : α → FileProgram σ ε β} (hp : ReadOnly A R p)
    (hf : ∀ a, R a → ReadOnly A R' (f a)) :
    ReadOnly A R' (p >>= f) := by
  induction hp with
  | done result h => exact hf result h
  | loadFile next h ih => exact .loadFile _ ih

theorem readOnly_run_pure {R : Except String α → Prop} {a : α} (h : R (.ok a)) :
    ReadOnly A R (pure a : ExceptT String (FileProgram σ ε) α).run :=
  .done (Except.ok a) h

theorem readOnly_run_throw {R : Except String α → Prop} {message : String}
    (h : R (.error message)) :
    ReadOnly A R (throw message : ExceptT String (FileProgram σ ε) α).run :=
  .done (Except.error message) h

theorem readOnly_run_bind {R : Except String α → Prop} {R' : Except String β → Prop}
    {x : ExceptT String (FileProgram σ ε) α} {f : α → ExceptT String (FileProgram σ ε) β}
    (hx : ReadOnly A R x.run) (hf : ∀ a, R (.ok a) → ReadOnly A R' (f a).run)
    (herror : ∀ message, R (.error message) → R' (.error message)) :
    ReadOnly A R' (x >>= f).run := by
  refine readOnly_bind hx fun result hresult => ?_
  cases result with
  | ok a => exact hf a hresult
  | error message => exact .done _ (herror message hresult)

theorem Config.step_of_readOnly (c : Config σ ε α) (h : ReadOnly A R (c.program w))
    (hfile : A c.file) :
    (c.step w).file = c.file ∧ (c.step w).log = c.log ∧ ReadOnly A R ((c.step w).program w) := by
  obtain ⟨hstep, hsame⟩ := h.step hfile
  refine ⟨congrArg Prod.fst hsame, ?_, by simpa [Config.step] using hstep⟩
  simp [Config.step, hsame]

theorem Config.outlook_step_other (c : Config σ ε α) (hfile : (c.step w).file = c.file)
    (hlog : (c.step w).log = c.log) :
    (c.step w).outlook w.other = c.outlook w.other := by
  simp only [Config.outlook, Config.step_program_other, hfile, hlog]

theorem Config.run_of_readOnly (c : Config σ ε α) (hfile : A c.file)
    (hread : ∀ w, ReadOnly A R (c.program w)) (schedule : List Worker) :
    (c.run schedule).file = c.file ∧ (c.run schedule).log = c.log ∧
      ∀ w, ReadOnly A R ((c.run schedule).program w) := by
  induction schedule using List.reverseRecOn with
  | nil => exact ⟨rfl, rfl, hread⟩
  | append_singleton schedule v ih =>
      obtain ⟨hsame, hlog, hro⟩ := ih
      obtain ⟨hfile', hlog', hstep⟩ := (c.run schedule).step_of_readOnly (hro v) (hsame ▸ hfile)
      rw [Config.run_concat]
      refine ⟨hfile'.trans hsame, hlog'.trans hlog, fun w => ?_⟩
      rcases Worker.eq_or_eq_other w v with rfl | rfl
      · exact hstep
      · rw [Config.step_program_other]
        exact hro v.other

theorem Config.outlook_of_done (c : Config σ ε α) {result : α} (h : c.program w = done result) :
    c.outlook w = ⟨c.file, c.log, result⟩ := by
  simp [Config.outlook, h]

theorem Config.run_alone (c : Config σ ε α) (w : Worker) (schedule : List Worker)
    (h : w.other ∉ schedule) :
    (c.run schedule).outlook w = c.outlook w ∧
      (c.run schedule).program w.other = c.program w.other := by
  induction schedule using List.reverseRecOn with
  | nil => exact ⟨rfl, rfl⟩
  | append_singleton schedule v ih =>
      rw [List.mem_append, List.mem_singleton, not_or] at h
      obtain ⟨hout, hwait⟩ := ih h.1
      rw [Config.run_concat]
      rcases Worker.eq_or_eq_other v w with rfl | rfl
      · exact ⟨(Config.outlook_step _ _).trans hout, by rwa [Config.step_program_other]⟩
      · exact absurd rfl h.2

theorem Config.outlook_run_of_readOnly (c : Config σ ε α) (w : Worker)
    (hread : ReadOnly (fun _ => True) R (c.program w.other)) (schedule : List Worker) :
    (c.run schedule).outlook w = c.outlook w ∧
      ReadOnly (fun _ => True) R ((c.run schedule).program w.other) := by
  induction schedule using List.reverseRecOn with
  | nil => exact ⟨rfl, hread⟩
  | append_singleton schedule v ih =>
      obtain ⟨hout, hro⟩ := ih
      rw [Config.run_concat]
      rcases Worker.eq_or_eq_other v w with rfl | rfl
      · exact ⟨(Config.outlook_step _ _).trans hout, by rwa [Config.step_program_other]⟩
      · obtain ⟨hfile, hlog, hstep⟩ := (c.run schedule).step_of_readOnly hro trivial
        have hother := (c.run schedule).outlook_step_other hfile hlog
        rw [Worker.other_other] at hother
        exact ⟨hother.trans hout, hstep⟩

end Schedules

end FileProgram

end HarborBeacon
