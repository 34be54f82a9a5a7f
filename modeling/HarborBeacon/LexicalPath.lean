import HarborBeacon.LineLog

/-!
Absolute paths resolved by their text alone: empty and `.` components are dropped, and `..`
goes back one component, never above the root. A resolved path is the list of the names on
the way down from the root.
-/

namespace HarborBeacon.LexicalPath

open LineLog

def IsName (component : List Char) : Prop :=
  component ≠ [] ∧ component ≠ ['.'] ∧ component ≠ ['.', '.'] ∧ '/' ∉ component

def descend (place : List (List Char)) (component : List Char) : List (List Char) :=
  if component = [] ∨ component = ['.'] then place
  else if component = ['.', '.'] then place.dropLast
  else place ++ [component]

def resolve (path : List Char) : List (List Char) :=
  (path.splitOn '/').foldl descend []

def spell (names : List (List Char)) : List Char :=
  '/' :: ['/'].intercalate names

theorem descend_of_isName (place : List (List Char)) {component : List Char}
    (h : IsName component) : descend place component = place ++ [component] := by
  obtain ⟨hempty, hdot, hdots, -⟩ := h
  simp [descend, hempty, hdot, hdots]

theorem foldl_descend_names (place names : List (List Char)) (h : ∀ name ∈ names, IsName name) :
    names.foldl descend place = place ++ names := by
  induction names generalizing place with
  | nil => simp
  | cons name rest ih =>
      rw [List.forall_mem_cons] at h
      rw [List.foldl_cons, descend_of_isName place h.1, ih _ h.2, List.append_assoc,
        List.singleton_append]

variable {names : List (List Char)}

theorem splitOn_spell (hne : names ≠ []) (h : ∀ name ∈ names, IsName name) :
    (spell names).splitOn '/' = [] :: names := by
  have hsplit : ([] ++ '/' :: ['/'].intercalate names).splitOn '/' =
      [] :: (['/'].intercalate names).splitOn '/' :=
    List.splitOn_append_cons_self_of_not_mem List.not_mem_nil _
  rw [List.nil_append] at hsplit
  rw [spell, hsplit, List.splitOn_intercalate '/' (fun name hname => (h name hname).2.2.2) hne]

theorem resolve_spell (h : ∀ name ∈ names, IsName name) :
    resolve (spell names) = names := by
  by_cases hne : names = []
  · subst hne
    decide
  · rw [resolve, splitOn_spell hne h, List.foldl_cons]
    exact foldl_descend_names [] names h

theorem spell_append_slash (hne : names ≠ []) :
    spell names ++ ['/'] = '/' :: logOf '/' names := by
  rw [spell, List.cons_append]
  congr 1
  induction names with
  | nil => exact absurd rfl hne
  | cons name rest ih =>
      cases rest with
      | nil => simp [logOf, List.intercalate]
      | cons next rest =>
          rw [logOf_cons, ← ih (by simp)]
          simp [List.intercalate]

theorem append_cons_isPrefix_iff {sep : Char} {xs ys : List Char} (hxs : sep ∉ xs)
    (hys : sep ∉ ys) (as bs : List Char) :
    xs ++ sep :: as <+: ys ++ sep :: bs ↔ xs = ys ∧ as <+: bs := by
  induction xs generalizing ys with
  | nil =>
      cases ys with
      | nil => simp
      | cons y ys =>
          have hy : sep ≠ y := by
            rintro rfl
            simp at hys
          simp [hy]
  | cons x xs ih =>
      have hx : x ≠ sep := by
        rintro rfl
        simp at hxs
      cases ys with
      | nil => simp [hx]
      | cons y ys =>
          have hxs' : sep ∉ xs := fun hmem => hxs (List.mem_cons_of_mem _ hmem)
          have hys' : sep ∉ ys := fun hmem => hys (List.mem_cons_of_mem _ hmem)
          simp only [List.cons_append, List.cons_prefix_cons, ih hxs' hys', List.cons.injEq,
            and_assoc]

theorem logOf_isPrefix_iff {roots names : List (List Char)} (hroots : ∀ name ∈ roots, IsName name)
    (hnames : ∀ name ∈ names, IsName name) :
    logOf '/' roots <+: logOf '/' names ↔ roots <+: names := by
  induction roots generalizing names with
  | nil => simp
  | cons root roots ih =>
      rw [List.forall_mem_cons] at hroots
      cases names with
      | nil => simp [logOf_cons]
      | cons name names =>
          rw [List.forall_mem_cons] at hnames
          rw [logOf_cons, logOf_cons,
            append_cons_isPrefix_iff hroots.1.2.2.2 hnames.1.2.2.2, ih hroots.2 hnames.2,
            List.cons_prefix_cons]

theorem spell_under_iff {roots names : List (List Char)} (hne : roots ≠ [])
    (hroots : ∀ name ∈ roots, IsName name) (hnames : ∀ name ∈ names, IsName name) :
    spell names = spell roots ∨ spell roots ++ ['/'] <+: spell names ↔ roots <+: names := by
  have hslash : spell names = spell roots ∨ spell roots ++ ['/'] <+: spell names ↔
      spell roots ++ ['/'] <+: spell names ++ ['/'] := by
    rw [List.prefix_concat_iff, List.append_left_inj, eq_comm]
  rw [hslash, spell_append_slash hne]
  by_cases hempty : names = []
  · subst hempty
    obtain ⟨root, rest, rfl⟩ := List.exists_cons_of_ne_nil hne
    have hroot := hroots root List.mem_cons_self
    have hname : ¬ logOf '/' (root :: rest) <+: [] ++ '/' :: [] := by
      rw [logOf_cons, append_cons_isPrefix_iff hroot.2.2.2 List.not_mem_nil]
      exact fun h => hroot.1 h.1
    have htop : spell [] ++ ['/'] = '/' :: ([] ++ '/' :: []) := by decide
    rw [htop, List.cons_prefix_cons]
    simp only [hname, and_false, List.prefix_nil, reduceCtorEq]
  · rw [spell_append_slash hempty, List.cons_prefix_cons, logOf_isPrefix_iff hroots hnames]
    simp

theorem spell_under_top_iff (hnames : ∀ name ∈ names, IsName name) :
    spell names = spell [] ∨ spell [] ++ ['/'] <+: spell names ↔ names = [] := by
  cases names with
  | nil => simp
  | cons name rest =>
      obtain ⟨hempty, -, -, hslash⟩ := hnames name List.mem_cons_self
      obtain ⟨c, tail, rfl⟩ := List.exists_cons_of_ne_nil hempty
      have hc : '/' ≠ c := fun heq => hslash (heq ▸ List.mem_cons_self)
      have hspell : ∃ more, spell ((c :: tail) :: rest) = '/' :: c :: more := by
        cases rest with
        | nil => exact ⟨tail, by simp [spell, List.intercalate]⟩
        | cons next rest =>
            exact ⟨tail ++ '/' :: ['/'].intercalate (next :: rest), by
              simp [spell, List.intercalate]⟩
      obtain ⟨more, hspell⟩ := hspell
      have htop : spell [] = ['/'] := by decide
      rw [hspell, htop]
      simp [hc]

/-- Where a path leads by its text alone: from the top or from the working directory, so many
directories up and then down along the names. Above the top there is nothing. -/
structure Place where
  absolute : Bool
  up : Nat
  names : List (List Char)
deriving DecidableEq

def Place.step (place : Place) (component : List Char) : Place :=
  if component = ['.', '.'] ∧ place.names = [] ∧ place.absolute = false then
    { place with up := place.up + 1 }
  else { place with names := descend place.names component }

def lexical (path : List Char) : Place :=
  (path.splitOn '/').foldl Place.step
    { absolute := path.head? = some '/', up := 0, names := [] }

/-- A place is another one or lies below it, whatever the working directory is. -/
def Place.Within (inner outer : Place) : Prop :=
  inner.absolute = outer.absolute ∧
    (inner.up < outer.up ∧ outer.names = [] ∨ inner.up = outer.up ∧ outer.names <+: inner.names)

theorem foldl_step_absolute (components : List (List Char)) (place : Place)
    (h : place.absolute = true) : components.foldl Place.step place =
      { place with names := components.foldl descend place.names } := by
  induction components generalizing place with
  | nil => rfl
  | cons component rest ih =>
      have hstep : place.step component =
          { place with names := descend place.names component } := by
        rw [Place.step, if_neg]
        rintro ⟨-, -, hrelative⟩
        rw [h] at hrelative
        cases hrelative
      have hrest := ih { place with names := descend place.names component } h
      rw [List.foldl_cons, hstep, hrest]
      rfl

theorem lexical_absolute {path : List Char} (h : path.head? = some '/') :
    lexical path = { absolute := true, up := 0, names := resolve path } := by
  rw [lexical, foldl_step_absolute _ _ (decide_eq_true h), resolve]
  simp [h]

theorem lexical_spell (h : ∀ name ∈ names, IsName name) :
    lexical (spell names) = { absolute := true, up := 0, names } := by
  rw [lexical_absolute rfl, resolve_spell h]

end HarborBeacon.LexicalPath
