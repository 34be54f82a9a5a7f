import Mathlib.Algebra.GroupWithZero.Nat
import Mathlib.Data.List.DropRight

/-!
Texts that are cut at byte offsets. A slice exists only between the boundaries of characters; a
program that asks for another one panics.
-/

namespace HarborBeacon.ByteSlices

/-- How a program ends without a result. -/
inductive Stop where
  | panicked
  | unfinished
deriving DecidableEq

def byteLen (text : List Char) : Nat :=
  (text.map Char.utf8Size).sum

@[simp] theorem byteLen_nil : byteLen [] = 0 := rfl

@[simp] theorem byteLen_cons (c : Char) (text : List Char) :
    byteLen (c :: text) = c.utf8Size + byteLen text := rfl

@[simp] theorem byteLen_append (front back : List Char) :
    byteLen (front ++ back) = byteLen front + byteLen back := by
  rw [byteLen, List.map_append, List.sum_append]
  rfl

def splitBytes : Nat → List Char → Option (List Char × List Char)
  | 0, text => some ([], text)
  | _ + 1, [] => none
  | offset + 1, c :: rest =>
      if c.utf8Size ≤ offset + 1 then
        (splitBytes (offset + 1 - c.utf8Size) rest).map fun cut => (c :: cut.1, cut.2)
      else none

theorem splitBytes_append (front back : List Char) :
    splitBytes (byteLen front) (front ++ back) = some (front, back) := by
  induction front with
  | nil => rw [byteLen_nil, List.nil_append, splitBytes]
  | cons c front ih =>
      have hpos := c.utf8Size_pos
      obtain ⟨offset, hoffset⟩ : ∃ offset, byteLen (c :: front) = offset + 1 :=
        ⟨byteLen (c :: front) - 1, by rw [byteLen_cons]; omega⟩
      have hrest : offset + 1 - c.utf8Size = byteLen front := by
        rw [← hoffset, byteLen_cons]
        omega
      rw [hoffset, List.cons_append, splitBytes, if_pos (by rw [← hoffset, byteLen_cons]; omega),
        hrest, ih]
      rfl

theorem splitBytes_eq_some_iff {offset : Nat} {text front back : List Char} :
    splitBytes offset text = some (front, back) ↔
      text = front ++ back ∧ byteLen front = offset := by
  constructor
  · intro h
    induction text generalizing offset front with
    | nil =>
        cases offset with
        | zero =>
            obtain ⟨rfl, rfl⟩ := Prod.mk.inj (Option.some.inj h)
            exact ⟨rfl, rfl⟩
        | succ offset => cases h
    | cons c rest ih =>
        cases offset with
        | zero =>
            obtain ⟨rfl, rfl⟩ := Prod.mk.inj (Option.some.inj h)
            exact ⟨rfl, rfl⟩
        | succ offset =>
            rw [splitBytes] at h
            split_ifs at h with hsize
            obtain ⟨⟨before, after⟩, hcut, hpair⟩ := Option.map_eq_some_iff.mp h
            obtain ⟨rfl, rfl⟩ := Prod.mk.inj hpair
            obtain ⟨rfl, hlength⟩ := ih hcut
            refine ⟨rfl, ?_⟩
            rw [byteLen_cons, hlength]
            omega
  · rintro ⟨rfl, rfl⟩
    exact splitBytes_append front back

/-- `&text[start..stop]` -/
def slice (text : List Char) (start stop : Nat) : Except Stop (List Char) :=
  if stop < start then .error .panicked
  else
    match splitBytes stop text with
    | none => .error .panicked
    | some (front, _) =>
        match splitBytes start front with
        | none => .error .panicked
        | some (_, middle) => .ok middle

/-- `&text[start..]` -/
def sliceFrom (text : List Char) (start : Nat) : Except Stop (List Char) :=
  slice text start (byteLen text)

theorem slice_eq {text front middle back : List Char} (h : text = front ++ middle ++ back) :
    slice text (byteLen front) (byteLen front + byteLen middle) = .ok middle := by
  have hcut : splitBytes (byteLen front + byteLen middle) text = some (front ++ middle, back) := by
    rw [h, ← byteLen_append]
    exact splitBytes_append _ _
  rw [slice, if_neg (by omega), hcut]
  dsimp only
  rw [splitBytes_append]

theorem sliceFrom_eq {text front back : List Char} (h : text = front ++ back) :
    sliceFrom text (byteLen front) = .ok back := by
  have hlength : byteLen text = byteLen front + byteLen back := by rw [h, byteLen_append]
  have hwhole : text = front ++ back ++ [] := by rw [h, List.append_nil]
  rw [sliceFrom, hlength]
  exact slice_eq hwhole

theorem slice_inside {text front back : List Char} {c : Char} {offset stop : Nat}
    (h : text = front ++ c :: back) (hpos : 0 < offset) (hoffset : offset < c.utf8Size) :
    slice text (byteLen front + offset) stop = .error .panicked := by
  rw [slice]
  split_ifs with hstop
  · rfl
  · cases hcut : splitBytes stop text with
    | none => rfl
    | some cut =>
        dsimp only
        cases hstart : splitBytes (byteLen front + offset) cut.1 with
        | none => rfl
        | some inner =>
            obtain ⟨before, middle⟩ := inner
            obtain ⟨htext, -⟩ := splitBytes_eq_some_iff.mp hcut
            obtain ⟨hfront, hlength⟩ := splitBytes_eq_some_iff.mp hstart
            have hsame : before ++ (middle ++ cut.2) = front ++ c :: back := by
              rw [← List.append_assoc, ← hfront, ← htext, h]
            exfalso
            -- the offset lies in the first character that the two cuts do not share
            rcases List.append_eq_append_iff.mp hsame with ⟨gap, rfl, -⟩ | ⟨gap, rfl, hgap⟩
            · rw [byteLen_append] at hlength
              omega
            · cases gap with
              | nil =>
                  rw [List.append_nil] at hlength
                  omega
              | cons d gap =>
                  obtain ⟨rfl, -⟩ := List.cons.inj hgap
                  rw [byteLen_append, byteLen_cons] at hlength
                  omega

section Searches

def splitAtText (pattern : List Char) : List Char → Option (List Char × List Char)
  | [] => if pattern = [] then some ([], []) else none
  | c :: rest =>
      if pattern <+: c :: rest then some ([], (c :: rest).drop pattern.length)
      else (splitAtText pattern rest).map fun cut => (c :: cut.1, cut.2)

def findText (pattern text : List Char) : Option Nat :=
  (splitAtText pattern text).map fun cut => byteLen cut.1

def findChar (p : Char → Bool) (text : List Char) : Option Nat :=
  if text.any p then some (byteLen (text.takeWhile fun c => !p c)) else none

def rfindChar (p : Char → Bool) (text : List Char) : Option Nat :=
  if text.any p then some (byteLen (text.rdropWhile fun c => !p c).dropLast) else none

variable {pattern text gap after : List Char}

theorem splitAtText_eq (h : splitAtText pattern text = some (gap, after)) :
    text = gap ++ pattern ++ after := by
  induction text generalizing gap with
  | nil =>
      rw [splitAtText] at h
      split_ifs at h with hpattern
      obtain ⟨rfl, rfl⟩ := Prod.mk.inj (Option.some.inj h)
      simp [hpattern]
  | cons c rest ih =>
      rw [splitAtText] at h
      split_ifs at h with hstart
      · obtain ⟨rfl, rfl⟩ := Prod.mk.inj (Option.some.inj h)
        exact (List.prefix_iff_eq_append.mp hstart).symm
      · obtain ⟨⟨before, tail⟩, hcut, hpair⟩ := Option.map_eq_some_iff.mp h
        obtain ⟨rfl, rfl⟩ := Prod.mk.inj hpair
        rw [ih hcut]
        rfl

theorem not_prefix_of_splitAtText (h : splitAtText pattern text = some (gap, after))
    {front back : List Char} (hgap : front ++ back = gap ++ pattern ++ after)
    (hfront : front.length < gap.length) : ¬ pattern <+: back := by
  have htext := splitAtText_eq h
  induction text generalizing gap front with
  | nil =>
      rw [htext.symm] at hgap
      cases front with
      | nil =>
          cases gap with
          | nil => exact absurd hfront (lt_irrefl _)
          | cons c gap => cases htext
      | cons c front => cases hgap
  | cons c rest ih =>
      rw [splitAtText] at h
      split_ifs at h with hstart
      · obtain ⟨rfl, rfl⟩ := Prod.mk.inj (Option.some.inj h)
        exact absurd hfront (Nat.not_lt_zero _)
      · obtain ⟨⟨before, tail⟩, hcut, hpair⟩ := Option.map_eq_some_iff.mp h
        obtain ⟨rfl, rfl⟩ := Prod.mk.inj hpair
        cases front with
        | nil =>
            rw [List.nil_append] at hgap
            rwa [hgap, ← htext]
        | cons d front =>
            rw [List.cons_append, List.cons_append, List.cons_append] at hgap
            obtain ⟨-, hrest⟩ := List.cons.inj hgap
            exact ih hcut hrest (Nat.lt_of_succ_lt_succ hfront) (splitAtText_eq hcut)

theorem splitAtText_eq_none (h : splitAtText pattern text = none) : ¬ pattern <:+: text := by
  induction text with
  | nil =>
      rw [splitAtText] at h
      split_ifs at h with hpattern
      rwa [List.infix_nil]
  | cons c rest ih =>
      rw [splitAtText] at h
      split_ifs at h with hstart
      rw [Option.map_eq_none_iff] at h
      rw [List.infix_cons_iff, not_or]
      exact ⟨hstart, ih h⟩

variable {p : Char → Bool}

theorem findChar_getD {start total : Nat} (h : total = start + byteLen text) :
    ((findChar p text).map (start + ·)).getD total =
      start + byteLen (text.takeWhile fun c => !p c) := by
  rw [findChar]
  split_ifs with hany
  · rfl
  · have hnone : text.takeWhile (fun c => !p c) = text := by
      rw [List.takeWhile_eq_self_iff]
      intro c hc
      rw [Bool.not_eq_true'] at *
      exact Bool.eq_false_iff.mpr fun hp => hany (List.any_eq_true.mpr ⟨c, hc, hp⟩)
    rw [hnone, h]
    rfl

theorem rfindChar_eq_some {front : List Char} {c : Char}
    (h : text.rdropWhile (fun c => !p c) = front ++ [c]) :
    rfindChar p text = some (byteLen front) := by
  have hany : text.any p = true := by
    rw [List.any_eq_true]
    have hlast := List.rdropWhile_last_not (fun c => !p c) text (by simp [h])
    simp only [h, List.getLast_append_singleton, Bool.not_eq_true', Bool.not_eq_false] at hlast
    have hmem : c ∈ text.rdropWhile fun c => !p c := by
      rw [h]
      exact List.mem_append_right _ (List.mem_singleton_self c)
    exact ⟨c, (List.rdropWhile_prefix _ _).subset hmem, hlast⟩
  rw [rfindChar, if_pos hany, h, List.dropLast_concat]

theorem rfindChar_eq_none (h : text.rdropWhile (fun c => !p c) = []) : rfindChar p text = none := by
  rw [rfindChar, if_neg]
  rw [List.any_eq_true]
  rintro ⟨c, hc, hp⟩
  have hall := List.rdropWhile_eq_nil_iff.mp h c hc
  rw [hp] at hall
  cases hall

end Searches

end HarborBeacon.ByteSlices
