import HarborBeacon.FileProgram

/-!
Workers that carry out operations on one shared file, each one operation after the other. An
operation is a program over the file; an exclusive operation holds a lock from its start to its end.
The results here say what remains of a saved file as long as nobody saves over a file that he has
not seen.
-/

namespace HarborBeacon.FileProgram

variable {σ ε α ω : Type}

section Saves

variable {γ : Type}

def SavesKeep (f : σ → γ) (loaded : σ) : FileProgram σ ε α → Prop
  | done _ => True
  | loadFile _ => True
  | saveFile file next => f file = f loaded ∧ SavesKeep f loaded next
  | observe _ next => SavesKeep f loaded next

/-- Nothing is saved before the file has been loaded. -/
inductive LoadsFirst : FileProgram σ ε α → Prop where
  | done (result : α) : LoadsFirst (done result)
  | loadFile (next : σ → FileProgram σ ε α) : LoadsFirst (loadFile next)
  | observe (event : ε) {next : FileProgram σ ε α} (h : LoadsFirst next) :
      LoadsFirst (observe event next)

theorem LoadsFirst.not_saveFile {file : σ} {next : FileProgram σ ε α} :
    ¬ LoadsFirst (saveFile file next) := by
  intro h
  cases h

theorem loadsFirst_bind {β : Type} {p : FileProgram σ ε α} (hp : LoadsFirst p)
    {f : α → FileProgram σ ε β} (hf : ∀ a, LoadsFirst (f a)) : LoadsFirst (p >>= f) := by
  change LoadsFirst (p.bind f)
  induction hp with
  | done result => exact hf result
  | loadFile next => exact .loadFile _
  | observe event h ih => exact .observe event ih

end Saves

section Workers

structure Operation (σ ε α : Type) where
  exclusive : Bool
  program : FileProgram σ ε α

/-- The file that an operation loaded, what was left to do then, and the file as the operation
saw it last, which is what it loaded or what it saved since. -/
structure View (σ ε α : Type) where
  loaded : σ
  plan : FileProgram σ ε α
  seen : σ

/-- An operation that has begun, its view of the file, and what it still has to do. -/
structure Activity (σ ε α : Type) where
  operation : Operation σ ε α
  view : Option (View σ ε α)
  rest : FileProgram σ ε α

/-- The file, the worker that holds the lock, what each worker is doing and what it will do
after that. -/
structure Sessions (σ ε α ω : Type) where
  file : σ
  holder : Option ω
  activity : ω → Option (Activity σ ε α)
  pending : ω → List (Operation σ ε α)

def Operation.start (op : Operation σ ε α) : Activity σ ε α where
  operation := op
  view := none
  rest := op.program

def Activity.step (a : Activity σ ε α) (s : σ) : Activity σ ε α :=
  match a.rest with
  | done _ => a
  | loadFile next => { a with view := some ⟨s, next s, s⟩, rest := next s }
  | saveFile file next =>
      { a with view := a.view.map fun view => { view with seen := file }, rest := next }
  | observe _ next => { a with rest := next }

def nextSave : FileProgram σ ε α → Option σ
  | saveFile file _ => some file
  | _ => none

theorem eq_saveFile_of_nextSave {p : FileProgram σ ε α} {file : σ} (h : nextSave p = some file) :
    ∃ next, p = saveFile file next := by
  cases p with
  | saveFile other next =>
      cases h
      exact ⟨next, rfl⟩
  | done result => cases h
  | loadFile next => cases h
  | observe event next => cases h

@[simp] theorem Activity.step_operation (a : Activity σ ε α) (s : σ) :
    (a.step s).operation = a.operation := by
  rw [Activity.step]
  split
  · rfl
  · rfl
  · rfl
  · rfl

def Activity.Sound (a : Activity σ ε α) : Prop :=
  ∀ view, a.view = some view → ∀ (γ : Type) (f : σ → γ), SavesKeep f view.loaded view.plan →
    f view.seen = f view.loaded ∧ SavesKeep f view.loaded a.rest

theorem Operation.start_sound (op : Operation σ ε α) : op.start.Sound := by
  intro view hview
  cases hview

theorem Activity.Sound.step {a : Activity σ ε α} (h : a.Sound) (s : σ) : (a.step s).Sound := by
  intro view hview γ f hplan
  rw [Activity.step] at hview ⊢
  cases hrest : a.rest with
  | done result =>
      rw [hrest] at hview
      exact h view hview γ f hplan
  | loadFile next =>
      rw [hrest] at hview
      cases hview
      exact ⟨rfl, hplan⟩
  | saveFile file next =>
      simp only [hrest, Option.map_eq_some_iff] at hview
      obtain ⟨earlier, hearlier, rfl⟩ := hview
      have hkeeps := (h earlier hearlier γ f hplan).2
      rw [hrest] at hkeeps
      exact hkeeps
  | observe event next =>
      rw [hrest] at hview
      have hkeeps := h view hview γ f hplan
      rwa [hrest] at hkeeps

namespace Sessions

variable [DecidableEq ω] (c : Sessions σ ε α ω) (w : ω)

def begin : Sessions σ ε α ω :=
  match c.pending w with
  | [] => c
  | op :: later =>
      if op.exclusive && c.holder.isSome then c
      else
        { c with
          holder := if op.exclusive then some w else c.holder
          activity := Function.update c.activity w (some op.start)
          pending := Function.update c.pending w later }

def finish (a : Activity σ ε α) : Sessions σ ε α ω :=
  { c with
    holder := if a.operation.exclusive then none else c.holder
    activity := Function.update c.activity w none }

def step : Sessions σ ε α ω :=
  match c.activity w with
  | none => c.begin w
  | some a =>
      match a.rest with
      | done _ => c.finish w a
      | _ =>
          { c with
            file := (nextSave a.rest).getD c.file
            activity := Function.update c.activity w (some (a.step c.file)) }

def run (schedule : List ω) : Sessions σ ε α ω :=
  schedule.foldl step c

theorem run_append (before after : List ω) : c.run (before ++ after) = (c.run before).run after :=
  List.foldl_append

def saving : Option σ :=
  (c.activity w).bind fun a => nextSave a.rest

def viewOf : Option (View σ ε α) :=
  (c.activity w).bind Activity.view

def current : Option (Operation σ ε α) :=
  (c.activity w).map Activity.operation

def Isolated : Prop :=
  ∀ file, c.saving w = some file → ∃ view, c.viewOf w = some view ∧ view.seen = c.file

def Spares {γ : Type} (f : σ → γ) : Prop :=
  ∀ file, c.saving w = some file → ∀ view, c.viewOf w = some view →
    SavesKeep f view.loaded view.plan

def EachStep (P : Sessions σ ε α ω → ω → Prop) : Sessions σ ε α ω → List ω → Prop
  | _, [] => True
  | c, w :: rest => P c w ∧ EachStep P (c.step w) rest

/-- Whatever a step saves can be read from the file as long as no operation changes it. -/
def NoLostUpdate (schedule : List ω) : Prop :=
  ∀ before w after file, schedule = before ++ w :: after →
    (c.run before).saving w = some file →
    ∀ (γ : Type) (f : σ → γ), EachStep (fun c v => c.Spares v f) (c.run (before ++ [w])) after →
      f (c.run schedule).file = f file

theorem step_cases :
    (c.activity w = none ∧ c.step w = c) ∨
    (∃ op later, c.activity w = none ∧ c.pending w = op :: later ∧
      (op.exclusive = true → c.holder = none) ∧
      c.step w =
        { c with
          holder := if op.exclusive then some w else c.holder
          activity := Function.update c.activity w (some op.start)
          pending := Function.update c.pending w later }) ∨
    (∃ a result, c.activity w = some a ∧ a.rest = done result ∧ c.step w = c.finish w a) ∨
    ∃ a, c.activity w = some a ∧
      c.step w =
        { c with
          file := (nextSave a.rest).getD c.file
          activity := Function.update c.activity w (some (a.step c.file)) } := by
  cases hactivity : c.activity w with
  | none =>
      have hstep : c.step w = c.begin w := by rw [step, hactivity]
      rw [hstep, begin]
      cases hpending : c.pending w with
      | nil => exact Or.inl ⟨rfl, rfl⟩
      | cons op later =>
          by_cases hwait : (op.exclusive && c.holder.isSome) = true
          · exact Or.inl ⟨rfl, if_pos hwait⟩
          · refine Or.inr (Or.inl ⟨op, later, rfl, rfl, ?_, if_neg hwait⟩)
            intro hexclusive
            simpa [hexclusive] using hwait
  | some a =>
      rw [step, hactivity]
      cases hrest : a.rest with
      | done result => exact Or.inr (Or.inr (Or.inl ⟨a, result, rfl, hrest, by simp only [hrest]⟩))
      | loadFile next => exact Or.inr (Or.inr (Or.inr ⟨a, rfl, by simp only [hrest]⟩))
      | saveFile file next => exact Or.inr (Or.inr (Or.inr ⟨a, rfl, by simp only [hrest]⟩))
      | observe event next => exact Or.inr (Or.inr (Or.inr ⟨a, rfl, by simp only [hrest]⟩))

theorem step_file : (c.step w).file = (c.saving w).getD c.file := by
  rcases c.step_cases w with ⟨hidle, hstep⟩ | ⟨op, later, hidle, -, -, hstep⟩ |
    ⟨a, result, hactivity, hrest, hstep⟩ | ⟨a, hactivity, hstep⟩
  · rw [hstep, saving, hidle]
    rfl
  · rw [hstep, saving, hidle]
    rfl
  · rw [hstep, saving, hactivity, Option.bind_some, hrest]
    rfl
  · rw [hstep, saving, hactivity, Option.bind_some]

section Runs

variable {c} {schedule : List ω}

theorem eachStep_append {P : Sessions σ ε α ω → ω → Prop} {before after : List ω} :
    EachStep P c (before ++ after) ↔ EachStep P c before ∧ EachStep P (c.run before) after := by
  induction before generalizing c with
  | nil => simp [EachStep, run]
  | cons w before ih =>
      rw [List.cons_append, EachStep, EachStep, ih, and_assoc]
      rfl

/-- What the workers are doing has a property. -/
def EachActivity (I : Activity σ ε α → Prop) (c : Sessions σ ε α ω) : Prop :=
  ∀ w a, c.activity w = some a → I a

section Activities

variable {I : Activity σ ε α → Prop}

theorem EachActivity.update (h : EachActivity I c) {w : ω} {next : Option (Activity σ ε α)}
    (hnext : ∀ a, next = some a → I a) {v : ω} {a : Activity σ ε α}
    (ha : Function.update c.activity w next v = some a) : I a := by
  rcases eq_or_ne v w with rfl | hne
  · rw [Function.update_self] at ha
    exact hnext a ha
  · rw [Function.update_of_ne hne] at ha
    exact h v a ha

theorem EachActivity.step (hstart : ∀ op : Operation σ ε α, I op.start)
    (hstep : ∀ a s, I a → I (a.step s)) (h : EachActivity I c) (w : ω) :
    EachActivity I (c.step w) := by
  rcases c.step_cases w with ⟨-, hnext⟩ | ⟨op, later, -, -, -, hnext⟩ |
    ⟨a, result, -, -, hnext⟩ | ⟨a, hactivity, hnext⟩
  · rw [hnext]
    exact h
  · rw [hnext]
    intro v a ha
    refine h.update ?_ ha
    rintro _ ⟨⟩
    exact hstart op
  · rw [hnext]
    intro v b hb
    exact h.update (by simp) hb
  · rw [hnext]
    intro v b hb
    refine h.update ?_ hb
    rintro _ ⟨⟩
    exact hstep a c.file (h w a hactivity)

theorem EachActivity.run (hstart : ∀ op : Operation σ ε α, I op.start)
    (hstep : ∀ a s, I a → I (a.step s)) (h : EachActivity I c) (schedule : List ω) :
    EachActivity I (c.run schedule) := by
  induction schedule generalizing c with
  | nil => exact h
  | cons w rest ih => exact ih (h.step hstart hstep w)

end Activities

def Sound (c : Sessions σ ε α ω) : Prop :=
  EachActivity Activity.Sound c

theorem Sound.step (h : c.Sound) (w : ω) : (c.step w).Sound :=
  EachActivity.step Operation.start_sound (fun _ s ha => ha.step s) h w

theorem Sound.run (h : c.Sound) (schedule : List ω) : (c.run schedule).Sound :=
  EachActivity.run Operation.start_sound (fun _ s ha => ha.step s) h schedule

theorem keeps_step {γ : Type} {f : σ → γ} {w : ω} (h : c.Sound) (hisolated : c.Isolated w)
    (hspares : c.Spares w f) : f (c.step w).file = f c.file := by
  rw [step_file]
  cases hsaving : c.saving w with
  | none => rfl
  | some file =>
      obtain ⟨view, hview, hseen⟩ := hisolated file hsaving
      have hplan := hspares file hsaving view hview
      obtain ⟨a, hactivity, hview⟩ := Option.bind_eq_some_iff.mp hview
      obtain ⟨hfile, hrest⟩ := h w a hactivity view hview γ f hplan
      rw [saving, hactivity, Option.bind_some] at hsaving
      obtain ⟨next, hsave⟩ := eq_saveFile_of_nextSave hsaving
      rw [hsave] at hrest
      calc
        f file = f view.loaded := hrest.1
        _ = f view.seen := hfile.symm
        _ = f c.file := by rw [hseen]

theorem keeps_run {γ : Type} {f : σ → γ} (h : c.Sound) (hisolated : EachStep Isolated c schedule)
    (hspares : EachStep (fun c w => c.Spares w f) c schedule) :
    f (c.run schedule).file = f c.file := by
  induction schedule generalizing c with
  | nil => rfl
  | cons w rest ih =>
      calc
        f ((c.step w).run rest).file = f (c.step w).file := ih (h.step w) hisolated.2 hspares.2
        _ = f c.file := keeps_step h hisolated.1 hspares.1

theorem noLostUpdate_of_isolated (h : c.Sound) (hisolated : EachStep Isolated c schedule) :
    c.NoLostUpdate schedule := by
  rintro before w after file rfl hsaving γ f hspares
  rw [← List.singleton_append, ← List.append_assoc] at hisolated ⊢
  have hkept := keeps_run (h.run (before ++ [w])) (eachStep_append.mp hisolated).2 hspares
  rw [run_append c (before ++ [w]), hkept, run_append]
  change f ((c.run before).step w).file = f file
  rw [step_file, hsaving, Option.getD_some]

/-- A worker that loads the file before another one changes it, and saves it after that, takes
the change back. -/
theorem not_noLostUpdate {γ : Type} {f : σ → γ} {v w : ω} (hne : v ≠ w)
    {opv opw : Operation σ ε α} {planv planw : σ → FileProgram σ ε α} {saved changed old : σ}
    {resultv resultw : α} (hidle : ∀ u, c.activity u = none) (hfree : c.holder = none)
    (hpendingv : c.pending v = [opv]) (hpendingw : c.pending w = [opw])
    (hexclusive : opw.exclusive = false)
    (hv : opv.program = loadFile planv) (hw : opw.program = loadFile planw)
    (hplanv : planv c.file = saveFile saved (saveFile changed (done resultv)))
    (hplanw : planw c.file = saveFile old (done resultw))
    (hspared : f old = f c.file) (hchanged : f changed ≠ f c.file) :
    ¬ c.NoLostUpdate [w, w, v, v, v, v, w] := by
  intro h
  have hbefore : c.run [w, w, v, v, v] =
      { file := saved
        holder := if opv.exclusive then some v else none
        activity := Function.update
          (Function.update c.activity w
            (some ⟨opw, some ⟨c.file, planw c.file, c.file⟩, planw c.file⟩))
          v (some ⟨opv, some ⟨c.file, planv c.file, saved⟩, saveFile changed (done resultv)⟩)
        pending := Function.update (Function.update c.pending w []) v [] } := by
    simp [run, step, begin, hidle, hfree, hpendingv, hpendingw, hv, hw, hplanv, hexclusive,
      Operation.start, Activity.step, nextSave, hne]
  have hafter : c.run ([w, w, v, v, v] ++ [v]) =
      { c.run [w, w, v, v, v] with
        file := changed
        activity := Function.update (c.run [w, w, v, v, v]).activity v
          (some ⟨opv, some ⟨c.file, planv c.file, changed⟩, done resultv⟩) } := by
    rw [run_append, hbefore]
    simp [run, step, Activity.step, nextSave]
  have hsaving : (c.run ([w, w, v, v, v] ++ [v])).saving w = some old := by
    rw [saving, hafter, hbefore]
    simp [hne.symm, hplanw, nextSave]
  have hview : (c.run ([w, w, v, v, v] ++ [v])).viewOf w =
      some ⟨c.file, planw c.file, c.file⟩ := by
    rw [viewOf, hafter, hbefore]
    simp [hne.symm]
  have hkept := h [w, w, v, v, v] v [w] changed rfl
    (by simp [saving, hbefore, nextSave]) γ f ⟨?_, trivial⟩
  · have hend : (c.run [w, w, v, v, v, v, w]).file = old := by
      change ((c.run ([w, w, v, v, v] ++ [v])).step w).file = old
      rw [step_file, hsaving, Option.getD_some]
    rw [hend, hspared] at hkept
    exact hchanged hkept.symm
  · intro file _ view hsame
    rw [hview, Option.some.injEq] at hsame
    subst hsame
    simp only [hplanw]
    exact ⟨hspared, trivial⟩

end Runs

section Locks

variable {c} {a : Activity σ ε α}

structure Locked (c : Sessions σ ε α ω) : Prop where
  pending : ∀ w, ∀ op ∈ c.pending w, op.exclusive = true ∧ LoadsFirst op.program
  busy : ∀ w a, c.activity w = some a → a.operation.exclusive = true ∧ c.holder = some w
  seen : ∀ w a, c.activity w = some a →
    (∀ view, a.view = some view → view.seen = c.file) ∧ (a.view = none → LoadsFirst a.rest)

omit [DecidableEq ω] in
theorem Locked.idle_of_free (h : c.Locked) (hfree : c.holder = none) (v : ω) :
    c.activity v = none := by
  cases hv : c.activity v with
  | none => rfl
  | some a =>
      have hholder := (h.busy v a hv).2
      rw [hfree] at hholder
      cases hholder

omit [DecidableEq ω] in
theorem Locked.idle_of_busy (h : c.Locked) {w : ω} (hactivity : c.activity w = some a) {v : ω}
    (hne : v ≠ w) : c.activity v = none := by
  cases hv : c.activity v with
  | none => rfl
  | some b =>
      have hholder := (h.busy v b hv).2
      rw [(h.busy w a hactivity).2, Option.some.injEq] at hholder
      exact absurd hholder.symm hne

theorem busy_of_update {w : ω} {next : Option (Activity σ ε α)}
    (hothers : ∀ v, v ≠ w → c.activity v = none) {v : ω}
    (ha : Function.update c.activity w next v = some a) : v = w ∧ next = some a := by
  rcases eq_or_ne v w with rfl | hne
  · rw [Function.update_self] at ha
    exact ⟨rfl, ha⟩
  · rw [Function.update_of_ne hne, hothers v hne] at ha
    cases ha

theorem Locked.begin (h : c.Locked) {w : ω} {op : Operation σ ε α}
    {later : List (Operation σ ε α)} (hpending : c.pending w = op :: later)
    (hfree : c.holder = none) :
    Locked
      { c with
        holder := if op.exclusive then some w else c.holder
        activity := Function.update c.activity w (some op.start)
        pending := Function.update c.pending w later } := by
  obtain ⟨hexclusive, hloads⟩ := h.pending w op (by simp [hpending])
  have hothers : ∀ v, v ≠ w → c.activity v = none := fun v _ => h.idle_of_free hfree v
  constructor
  · intro v other hother
    change other ∈ Function.update c.pending w later v at hother
    rcases eq_or_ne v w with rfl | hne
    · rw [Function.update_self] at hother
      exact h.pending v other (by simp [hpending, hother])
    · rw [Function.update_of_ne hne] at hother
      exact h.pending v other hother
  · intro v a ha
    obtain ⟨rfl, hstart⟩ := busy_of_update hothers ha
    cases hstart
    exact ⟨hexclusive, if_pos hexclusive⟩
  · intro v a ha
    obtain ⟨rfl, hstart⟩ := busy_of_update hothers ha
    cases hstart
    constructor
    · intro view hview
      cases hview
    · exact fun _ => hloads

theorem Locked.finish (h : c.Locked) {w : ω} (hactivity : c.activity w = some a) :
    (c.finish w a).Locked := by
  have hnone : ∀ v b, (c.finish w a).activity v ≠ some b := by
    intro v b hb
    obtain ⟨-, hdone⟩ := busy_of_update (fun v hne => h.idle_of_busy hactivity hne) hb
    cases hdone
  exact ⟨h.pending, fun v b hb => absurd hb (hnone v b), fun v b hb => absurd hb (hnone v b)⟩

theorem Locked.advance (h : c.Locked) {w : ω} (hactivity : c.activity w = some a) :
    Locked
      { c with
        file := (nextSave a.rest).getD c.file
        activity := Function.update c.activity w (some (a.step c.file)) } := by
  obtain ⟨hseen, hloads⟩ := h.seen w a hactivity
  have hothers : ∀ v, v ≠ w → c.activity v = none := fun v hne => h.idle_of_busy hactivity hne
  constructor
  · exact h.pending
  · intro v b hb
    obtain ⟨rfl, hnext⟩ := busy_of_update hothers hb
    cases hnext
    obtain ⟨hexclusive, hholder⟩ := h.busy v a hactivity
    rw [Activity.step_operation]
    exact ⟨hexclusive, hholder⟩
  · intro v b hb
    obtain ⟨rfl, hnext⟩ := busy_of_update hothers hb
    cases hnext
    simp only [Activity.step]
    cases hrest : a.rest with
    | done result =>
        refine ⟨hseen, fun _ => ?_⟩
        simp only [hrest]
        exact .done result
    | loadFile next =>
        constructor
        · rintro _ ⟨⟩
          rfl
        · intro hview
          cases hview
    | saveFile file next =>
        constructor
        · intro view hview
          obtain ⟨earlier, -, rfl⟩ := Option.map_eq_some_iff.mp hview
          rfl
        · intro hview
          have hfirst := hloads (Option.map_eq_none_iff.mp hview)
          rw [hrest] at hfirst
          exact (LoadsFirst.not_saveFile hfirst).elim
    | observe event next =>
        constructor
        · exact hseen
        · intro hview
          have hfirst := hloads hview
          rw [hrest] at hfirst
          cases hfirst with
          | observe _ h => exact h

theorem Locked.step (h : c.Locked) (w : ω) : (c.step w).Locked := by
  rcases c.step_cases w with ⟨-, hstep⟩ | ⟨op, later, -, hpending, hfree, hstep⟩ |
    ⟨a, result, hactivity, -, hstep⟩ | ⟨a, hactivity, hstep⟩
  · rw [hstep]
    exact h
  · rw [hstep]
    exact h.begin hpending (hfree (h.pending w op (by simp [hpending])).1)
  · rw [hstep]
    exact h.finish hactivity
  · rw [hstep]
    exact h.advance hactivity

omit [DecidableEq ω] in
theorem Locked.isolated (h : c.Locked) (w : ω) : c.Isolated w := by
  intro file hsaving
  obtain ⟨a, hactivity, hsave⟩ := Option.bind_eq_some_iff.mp hsaving
  obtain ⟨hseen, hloads⟩ := h.seen w a hactivity
  cases hview : a.view with
  | none =>
      have hfirst := hloads hview
      obtain ⟨next, hrest⟩ := eq_saveFile_of_nextSave hsave
      rw [hrest] at hfirst
      exact (LoadsFirst.not_saveFile hfirst).elim
  | some view =>
      refine ⟨view, ?_, hseen view hview⟩
      rw [viewOf, hactivity, Option.bind_some, hview]

theorem Locked.eachStep_isolated (h : c.Locked) (schedule : List ω) :
    EachStep Isolated c schedule := by
  induction schedule generalizing c with
  | nil => trivial
  | cons w rest ih => exact ⟨h.isolated w, ih (h.step w)⟩

end Locks

end Sessions

end Workers

end HarborBeacon.FileProgram
