import GroupReplay.Key
import Mathlib.Data.List.TakeWhile

/-!
Keys and their text.  A key is regrouped into numbers of six bits, each of which is written as one
symbol of the alphabet; reading the symbols back gives the numbers, and regrouping those gives the
key.
-/

namespace GroupReplay.Key

/-- The numbers of six bits that a key is regrouped into. -/
def sextets : Bytes → List Nat
  | x :: y :: z :: rest =>
    x.toNat / 4 :: (x.toNat % 4 * 16 + y.toNat / 16) :: (y.toNat % 16 * 4 + z.toNat / 64) ::
      z.toNat % 64 :: sextets rest
  | [x, y] => [x.toNat / 4, x.toNat % 4 * 16 + y.toNat / 16, y.toNat % 16 * 4]
  | [x] => [x.toNat / 4, x.toNat % 4 * 16]
  | [] => []

/-- The byte of text that stands for six bits. -/
def symbolByte (bits : Nat) : UInt8 := (symbol bits).val.toUInt8

theorem symbols_eq (key : Bytes) : symbols key = (sextets key).map symbol := by
  fun_induction sextets key <;> simp_all [symbols]

theorem sextets_lt (key : Bytes) : ∀ bits ∈ sextets key, bits < 64 := by
  fun_induction sextets key with
  | case1 x y z rest ih =>
    have := x.toNat_lt
    have := y.toNat_lt
    have := z.toNat_lt
    intro bits member
    simp only [List.mem_cons] at member
    obtain rfl | rfl | rfl | rfl | later := member
    all_goals first | omega | exact ih bits later
  | case2 x y =>
    have := x.toNat_lt
    have := y.toNat_lt
    intro bits member
    simp only [List.mem_cons, List.not_mem_nil, or_false] at member
    omega
  | case3 x =>
    have := x.toNat_lt
    intro bits member
    simp only [List.mem_cons, List.not_mem_nil, or_false] at member
    omega
  | case4 => nofun

/-! ### Symbols -/

private theorem symbol_size : ∀ bits : Fin 64, (symbol bits).utf8Size = 1 := by decide

private theorem symbol_ne_nul : ∀ bits : Fin 64, (symbol bits).toNat ≠ 0 := by decide

private theorem bits_symbol : ∀ bits : Fin 64, bits? (symbolByte bits) = some bits.val := by decide

theorem bits?_symbolByte {bits : Nat} (small : bits < 64) : bits? (symbolByte bits) = some bits :=
  bits_symbol ⟨bits, small⟩

theorem symbolByte_ne_pad {bits : Nat} (small : bits < 64) : symbolByte bits ≠ pad := by
  intro same
  have read := bits?_symbolByte small
  rw [same] at read
  revert read
  exact nofun

/-- Every symbol is one byte of text. -/
theorem ofText_symbols {numbers : List Nat} (small : ∀ bits ∈ numbers, bits < 64) :
    Bytes.ofText (String.ofList (numbers.map symbol)) = numbers.map symbolByte := by
  unfold Bytes.ofText
  rw [String.toByteArray_ofList]
  induction numbers with
  | nil => simp
  | cons bits rest ih =>
    have one : String.utf8EncodeChar (symbol bits) = [symbolByte bits] :=
      String.utf8EncodeChar_eq_singleton (symbol_size ⟨bits, small bits List.mem_cons_self⟩)
    have more := ih fun bits member => small bits (List.mem_cons_of_mem _ member)
    rw [List.map_cons, List.utf8Encode_cons, List.utf8Encode_singleton, one,
      ByteArray.toList_data_append, more, List.toList_data_toByteArray]
    rfl

theorem ofText_encode (key : Bytes) : Bytes.ofText (encode key) = (sextets key).map symbolByte := by
  rw [encode, symbols_eq, ofText_symbols (sextets_lt key)]

/-- The text of a key holds no NUL. -/
theorem encode_ne_nul (key : Bytes) : ∀ char ∈ (encode key).toList, char.toNat ≠ 0 := by
  rw [encode, String.toList_ofList, symbols_eq]
  intro char member
  obtain ⟨bits, among, rfl⟩ := List.mem_map.mp member
  exact symbol_ne_nul ⟨bits, sextets_lt key bits among⟩

theorem allBits_symbols {numbers : List Nat} (small : ∀ bits ∈ numbers, bits < 64) (offset : Nat) :
    allBits offset (numbers.map symbolByte) = .ok numbers := by
  induction numbers generalizing offset with
  | nil => rfl
  | cons bits rest ih =>
    obtain ⟨here, later⟩ := List.forall_mem_cons.mp small
    rw [List.map_cons, allBits, bitsAt, bits?_symbolByte here, ih later]
    rfl

/-! ### Regrouping -/

theorem threeBytes_sextets (x y z : UInt8) :
    threeBytes (x.toNat / 4) (x.toNat % 4 * 16 + y.toNat / 16) (y.toNat % 16 * 4 + z.toNat / 64)
      (z.toNat % 64) = [x, y, z] := by
  have hx := x.toNat_lt
  have hy := y.toNat_lt
  have hz := z.toNat_lt
  simp only [threeBytes, List.cons.injEq, and_true]
  refine ⟨?_, ?_, ?_⟩ <;> refine UInt8.toNat_inj.mp ?_ <;> rw [UInt8.toNat_ofNat'] <;> omega

/-- The last symbols are read without padding. -/
private theorem decodeTail_symbols {numbers : List Nat} (small : ∀ bits ∈ numbers, bits < 64)
    (offset : Nat) :
    decodeTail offset (numbers.map symbolByte) =
      lastBytes offset (numbers.map symbolByte) numbers := by
  have noPad : ∀ byte ∈ numbers.map symbolByte, (byte != pad) = true := by
    intro byte member
    obtain ⟨bits, among, rfl⟩ := List.mem_map.mp member
    simpa using symbolByte_ne_pad (small bits among)
  have body : (numbers.map symbolByte).takeWhile (· != pad) = numbers.map symbolByte :=
    List.takeWhile_eq_self_iff.mpr noPad
  have padding : (numbers.map symbolByte).dropWhile (· != pad) = [] :=
    List.dropWhile_eq_nil_iff.mpr noPad
  rw [decodeTail]
  simp only [body, padding, allBits_symbols small]
  rfl

private theorem decodeFrom_few {numbers : List Nat} (small : ∀ bits ∈ numbers, bits < 64)
    (some : numbers ≠ []) (few : numbers.length ≤ 4) (offset : Nat) :
    decodeFrom offset (numbers.map symbolByte) =
      lastBytes offset (numbers.map symbolByte) numbers := by
  rw [← decodeTail_symbols small]
  match numbers, some, few with
  | [_], _, _ | [_, _], _, _ | [_, _, _], _, _ | [_, _, _, _], _, _ => simp [decodeFrom]
  | _ :: _ :: _ :: _ :: _ :: _, _, few =>
    simp only [List.length_cons] at few
    omega

private theorem decodeFrom_more {p q r s next : Nat} {more : List Nat}
    (small : ∀ bits ∈ [p, q, r, s], bits < 64) (offset : Nat) :
    decodeFrom offset ((p :: q :: r :: s :: next :: more).map symbolByte) =
      (decodeFrom (offset + 4) ((next :: more).map symbolByte)).map (threeBytes p q r s ++ ·) := by
  have four := allBits_symbols small offset
  simp only [List.map_cons, List.map_nil] at four ⊢
  rw [decodeFrom, four]
  cases decodeFrom (offset + 4) (symbolByte next :: more.map symbolByte) <;> rfl

theorem decodeFrom_symbols (key : Bytes) (offset : Nat) :
    decodeFrom offset ((sextets key).map symbolByte) = .ok key := by
  have small := sextets_lt key
  fun_induction sextets key generalizing offset with
  | case1 x y z rest ih =>
    have first := threeBytes_sextets x y z
    cases rest with
    | nil =>
      rw [sextets, decodeFrom_few (by simpa [sextets] using small) (by simp) (by simp), lastBytes,
        first]
    | cons w rest =>
      have others : ∃ next more, sextets (w :: rest) = next :: more := by
        cases rest with
        | nil => exact ⟨_, _, rfl⟩
        | cons v rest => cases rest <;> exact ⟨_, _, rfl⟩
      obtain ⟨next, more, same⟩ := others
      rw [same] at ih small ⊢
      obtain ⟨four, later⟩ := List.forall_mem_append.mp
        (show ∀ bits ∈ [_, _, _, _] ++ next :: more, bits < 64 from small)
      rw [decodeFrom_more four, ih (offset + 4) later, first]
      rfl
  | case2 x y =>
    have first := threeBytes_sextets x y 0
    rw [decodeFrom_few small (by simp) (by simp), lastBytes, if_pos (by omega)]
    simp only [UInt8.toNat_zero, Nat.zero_div, Nat.add_zero, Nat.zero_mod] at first
    rw [first]
    rfl
  | case3 x =>
    have first := threeBytes_sextets x 0 0
    rw [decodeFrom_few small (by simp) (by simp), lastBytes, if_pos (by omega)]
    simp only [UInt8.toNat_zero, Nat.zero_div, Nat.add_zero, Nat.zero_mod, Nat.zero_mul] at first
    rw [first]
    rfl
  | case4 => simp [decodeFrom]

/-- Reading the text of a key gives the key. -/
theorem decode_encode (key : Bytes) : decode (encode key) = .ok key := by
  rw [decode]
  simp only [ofText_encode]
  rw [if_neg, decodeFrom_symbols]
  rintro ⟨oneOver, _, foreign⟩
  have nonempty : (sextets key).map symbolByte ≠ [] := fun empty => by simp [empty] at oneOver
  rw [List.getLastD_eq_getLast?, List.getLast?_eq_some_getLast nonempty, Option.getD_some] at foreign
  obtain ⟨bits, among, same⟩ := List.mem_map.mp (List.getLast_mem nonempty)
  rw [← same, bits?_symbolByte (sextets_lt key bits among)] at foreign
  cases foreign

theorem encode_injective {a b : Bytes} (same : encode a = encode b) : a = b := by
  have read := decode_encode a
  rw [same, decode_encode] at read
  exact (Except.ok.inj read).symm

end GroupReplay.Key
