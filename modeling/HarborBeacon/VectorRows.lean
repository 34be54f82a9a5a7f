import HarborBeacon.Binary32

/-!
Vectors of single-precision numbers as rows of bytes. Rows of one length lie one after another, so
that the row at an index is found by its place alone, whatever comes behind the rows.
-/

namespace HarborBeacon.VectorRows

open Binary32

def toLeBytes (x : F32) : List UInt8 :=
  let n := x.bits.toNat
  [UInt8.ofNat n, UInt8.ofNat (n / 256), UInt8.ofNat (n / 65536), UInt8.ofNat (n / 16777216)]

def fromLeBytes (a b c d : UInt8) : F32 where
  bits := UInt32.ofNat (a.toNat + 256 * b.toNat + 65536 * c.toNat + 16777216 * d.toNat)

/-- The numbers of a row, four bytes each. -/
def readVector : List UInt8 → List F32
  | a :: b :: c :: d :: rest => fromLeBytes a b c d :: readVector rest
  | _ => []

def vectorBytes (vector : List F32) : List UInt8 :=
  vector.flatMap toLeBytes

theorem fromLeBytes_toLeBytes (x : F32) :
    ∃ a b c d, toLeBytes x = [a, b, c, d] ∧ fromLeBytes a b c d = x := by
  refine ⟨_, _, _, _, rfl, ?_⟩
  obtain ⟨bits⟩ := x
  have hlt := bits.toNat_lt
  have hsum : bits.toNat % 256 + 256 * (bits.toNat / 256 % 256) +
      65536 * (bits.toNat / 65536 % 256) + 16777216 * (bits.toNat / 16777216 % 256) =
        bits.toNat := by omega
  simp only [fromLeBytes, UInt8.toNat_ofNat', Nat.reducePow, hsum, UInt32.ofNat_toNat]

@[simp] theorem length_toLeBytes (x : F32) : (toLeBytes x).length = 4 := rfl

@[simp] theorem length_vectorBytes (vector : List F32) :
    (vectorBytes vector).length = vector.length * 4 := by
  induction vector with
  | nil => rfl
  | cons x rest ih =>
      rw [vectorBytes, List.flatMap_cons, List.length_append, length_toLeBytes, List.length_cons]
      change 4 + (vectorBytes rest).length = _
      omega

theorem readVector_vectorBytes (vector : List F32) : readVector (vectorBytes vector) = vector := by
  induction vector with
  | nil => rfl
  | cons x rest ih =>
      obtain ⟨a, b, c, d, hbytes, hread⟩ := fromLeBytes_toLeBytes x
      rw [vectorBytes, List.flatMap_cons, hbytes]
      change fromLeBytes a b c d :: readVector (vectorBytes rest) = _
      rw [hread, ih]

section Rows

def rowsBytes (vectors : List (List F32)) : List UInt8 :=
  vectors.flatMap vectorBytes

def rowAt (dimensions index : Nat) (bytes : List UInt8) : List UInt8 :=
  (bytes.drop (index * (dimensions * 4))).take (dimensions * 4)

variable {vectors : List (List F32)} {dimensions : Nat}

theorem rowsBytes_append (before after : List (List F32)) :
    rowsBytes (before ++ after) = rowsBytes before ++ rowsBytes after :=
  List.flatMap_append

theorem length_rowsBytes (h : ∀ vector ∈ vectors, vector.length = dimensions) :
    (rowsBytes vectors).length = vectors.length * (dimensions * 4) := by
  induction vectors with
  | nil => simp [rowsBytes]
  | cons vector rest ih =>
      obtain ⟨hfirst, hrest⟩ := List.forall_mem_cons.mp h
      rw [rowsBytes, List.flatMap_cons, List.length_append, length_vectorBytes, hfirst,
        List.length_cons, Nat.succ_mul, Nat.add_comm]
      exact congrArg (· + _) (ih hrest)

theorem rowAt_rowsBytes (h : ∀ vector ∈ vectors, vector.length = dimensions)
    (extra : List UInt8) {index : Nat} {vector : List F32} (hvector : vectors[index]? = some vector) :
    rowAt dimensions index (rowsBytes vectors ++ extra) = vectorBytes vector := by
  induction vectors generalizing index with
  | nil => cases hvector
  | cons first rest ih =>
      obtain ⟨hfirst, hrest⟩ := List.forall_mem_cons.mp h
      have hbytes : (vectorBytes first).length = dimensions * 4 := by
        rw [length_vectorBytes, hfirst]
      have hsplit : rowsBytes (first :: rest) ++ extra =
          vectorBytes first ++ (rowsBytes rest ++ extra) := by
        rw [rowsBytes, List.flatMap_cons, List.append_assoc]
        rfl
      rw [hsplit]
      cases index with
      | zero =>
          rw [List.getElem?_cons_zero, Option.some.injEq] at hvector
          rw [rowAt, Nat.zero_mul, List.drop_zero, ← hbytes, List.take_left, hvector]
      | succ index =>
          have hdrop : (vectorBytes first ++ (rowsBytes rest ++ extra)).drop
              ((index + 1) * (dimensions * 4)) =
                (rowsBytes rest ++ extra).drop (index * (dimensions * 4)) := by
            rw [Nat.succ_mul, Nat.add_comm, ← List.drop_drop, ← hbytes, List.drop_left]
          rw [rowAt, hdrop]
          exact ih hrest hvector

theorem take_rowsBytes (h : ∀ vector ∈ vectors, vector.length = dimensions)
    (extra : List UInt8) :
    (rowsBytes vectors ++ extra).take (vectors.length * (dimensions * 4)) = rowsBytes vectors := by
  rw [← length_rowsBytes h, List.take_left]

end Rows

end HarborBeacon.VectorRows
