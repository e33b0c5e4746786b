import GroupReplay.Wire.Error

/-!
Numbers as bytes of seven bits each, lowest first, every byte but the last with its high bit set.
`read` takes at most ten bytes and refuses a tenth byte that would carry the number past 64 bits.
`read_write` says that reading what was written gives the number back and leaves what follows it.
-/

namespace GroupReplay.Wire.Varint

/-- The bytes of a number. -/
def write (n : Nat) : Bytes :=
  if n < 128 then [UInt8.ofNat n] else UInt8.ofNat (n % 128 + 128) :: write (n / 128)
termination_by n
decreasing_by omega

/-- How many bytes a number takes: one for every seven of its bits, and one for zero. -/
def size (n : Nat) : Nat := (Nat.log2 (max n 1) * 9 + 73) / 64

/-- The number at the start of `bytes`, in at most `budget` bytes of which the tenth holds a single
bit, and the bytes after it. -/
def readWithin : (budget : Nat) → Bytes → Option (Nat × Bytes)
  | 0, _ => none
  | _, [] => none
  | budget + 1, byte :: rest =>
    if byte.toNat < 128 then
      if budget = 0 ∧ 2 ≤ byte.toNat then none else some (byte.toNat, rest)
    else
      (readWithin budget rest).map fun (n, rest) => (byte.toNat - 128 + 128 * n, rest)

/-- The number at the start of `bytes` and the bytes after it. -/
def read (bytes : Bytes) : Except Fault (Nat × Bytes) :=
  match readWithin 10 bytes with
  | some result => .ok result
  | none => .error .varint

theorem toNat_ofNat_of_lt {n : Nat} (small : n < 256) : (UInt8.ofNat n).toNat = n := by
  simp [Nat.mod_eq_of_lt small]

/-- The least number that a byte of one bit after `budget` bytes of seven cannot hold. -/
def capacity : (budget : Nat) → Nat
  | 0 => 2
  | budget + 1 => 128 * capacity budget

theorem readWithin_write (budget n : Nat) (rest : Bytes) (fits : n < capacity budget) :
    readWithin (budget + 1) (write n ++ rest) = some (n, rest) := by
  induction budget generalizing n with
  | zero =>
    simp only [capacity] at fits
    rw [write, if_pos (by omega)]
    simp only [List.cons_append, List.nil_append, readWithin,
      toNat_ofNat_of_lt (by omega : n < 256)]
    rw [if_pos (by omega), if_neg (by omega)]
  | succ budget ih =>
    rw [write]
    split
    · simp only [List.cons_append, List.nil_append, readWithin,
        toNat_ofNat_of_lt (by omega : n < 256)]
      rw [if_pos (by omega), if_neg (by omega)]
    · have byte := toNat_ofNat_of_lt (by omega : n % 128 + 128 < 256)
      have fits' : n / 128 < capacity budget := by
        simp only [capacity] at fits
        omega
      simp only [List.cons_append]
      rw [readWithin, byte, if_neg (by omega), ih _ fits']
      simp only [Option.map_some, Option.some.injEq, Prod.mk.injEq, and_true]
      omega

theorem read_write (n : Nat) (rest : Bytes) (fits : n < 0x10000000000000000) :
    read (write n ++ rest) = .ok (n, rest) := by
  simp [read, readWithin_write 9 n rest fits]

theorem readWithin_shortens {budget : Nat} {bytes rest : Bytes} {n : Nat}
    (ok : readWithin budget bytes = some (n, rest)) : rest.length < bytes.length := by
  induction budget generalizing bytes n with
  | zero => simp [readWithin] at ok
  | succ budget ih =>
    cases bytes with
    | nil => simp [readWithin] at ok
    | cons byte tail =>
      rw [readWithin] at ok
      split at ok
      · split at ok <;> simp_all
      · obtain ⟨⟨m, r⟩, inner, same⟩ := Option.map_eq_some_iff.mp ok
        simp only [Prod.mk.injEq] at same
        have := ih (same.2 ▸ inner)
        simp only [List.length_cons]
        omega

theorem read_shortens {bytes rest : Bytes} {n : Nat} (ok : read bytes = .ok (n, rest)) :
    rest.length < bytes.length := by
  unfold read at ok
  split at ok
  · next found => cases ok; exact readWithin_shortens found
  · cases ok

theorem write_ne_nil (n : Nat) : write n ≠ [] := by
  rw [write]
  split <;> simp

end GroupReplay.Wire.Varint
