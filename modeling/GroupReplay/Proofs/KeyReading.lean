import GroupReplay.Proofs.KeyText

/-!
Texts that can be read as keys.  Reading is strict: neither padding nor a foreign symbol nor a last
symbol with bits to spare gets through, so that the text of what was read is the text that it was read
from.  No two texts are therefore read as the same key, and those that are no text of a key are not
read at all.
-/

namespace GroupReplay.Key

/-! ### Symbols -/

private theorem symbol_of_bits : ∀ code : Fin 256,
    (bits? (UInt8.ofNat code)).all fun bits =>
      decide (bits < 64 ∧ symbolByte bits = UInt8.ofNat code) := by decide +kernel

/-- A byte that is read as six bits is the symbol of these. -/
theorem symbolByte_of_bits? {byte : UInt8} {bits : Nat} (read : bits? byte = some bits) :
    bits < 64 ∧ symbolByte bits = byte := by
  have every := symbol_of_bits ⟨byte.toNat, byte.toNat_lt⟩
  simpa [read] using every

theorem symbols_of_allBits {offset : Nat} {text : Bytes} {numbers : List Nat}
    (read : allBits offset text = .ok numbers) :
    numbers.map symbolByte = text ∧ ∀ bits ∈ numbers, bits < 64 := by
  induction text generalizing offset numbers with
  | nil =>
    cases read
    exact ⟨rfl, nofun⟩
  | cons byte rest ih =>
    rw [allBits, bitsAt] at read
    cases first : bits? byte with
    | none =>
      rw [first] at read
      cases read
    | some bits =>
      rw [first] at read
      cases more : allBits (offset + 1) rest with
      | error e =>
        rw [more] at read
        cases read
      | ok others =>
        rw [more] at read
        cases read
        obtain ⟨small, same⟩ := symbolByte_of_bits? first
        obtain ⟨sames, smalls⟩ := ih more
        exact ⟨by rw [List.map_cons, same, sames], List.forall_mem_cons.mpr ⟨small, smalls⟩⟩

/-! ### Groups of four -/

/-- Three bytes that were put together from four numbers are taken apart into them. -/
theorem sextets_threeBytes {a b c d : Nat} (small : ∀ bits ∈ [a, b, c, d], bits < 64) (key : Bytes) :
    sextets (threeBytes a b c d ++ key) = a :: b :: c :: d :: sextets key := by
  simp only [List.forall_mem_cons] at small
  obtain ⟨ha, hb, hc, hd, _⟩ := small
  simp only [threeBytes, List.cons_append, List.nil_append, sextets, UInt8.toNat_ofNat',
    List.cons.injEq, and_true]
  omega

/-- The last one to three bytes are taken apart into the numbers that they were read from, since these
have no bits to spare. -/
theorem sextets_of_lastBytes {offset : Nat} {text key : Bytes} {numbers : List Nat}
    (small : ∀ bits ∈ numbers, bits < 64) (read : lastBytes offset text numbers = .ok key) :
    sextets key = numbers := by
  unfold lastBytes at read
  split at read
  · cases read
    exact (congrArg sextets (List.append_nil _)).symm.trans (sextets_threeBytes small [])
  · next a b c =>
    split at read
    · cases read
      simp only [List.forall_mem_cons] at small
      simp only [threeBytes, List.take_succ_cons, List.take_zero, sextets, UInt8.toNat_ofNat',
        List.cons.injEq, and_true]
      omega
    · cases read
  · next a b =>
    split at read
    · cases read
      simp only [List.forall_mem_cons] at small
      simp only [threeBytes, List.take_succ_cons, List.take_zero, sextets, UInt8.toNat_ofNat',
        List.cons.injEq, and_true]
      omega
    · cases read
  · cases read

theorem symbols_of_decodeTail {offset : Nat} {text key : Bytes}
    (read : decodeTail offset text = .ok key) : (sextets key).map symbolByte = text := by
  unfold decodeTail at read
  cases body : allBits offset (text.takeWhile (· != pad)) with
  | error e =>
    simp only [body] at read
    cases read
  | ok numbers =>
    simp only [body, bind, Except.bind] at read
    split at read
    · cases read
    · split at read
      · cases read
      · next padded =>
        have unpadded : text.takeWhile (· != pad) = text := by
          have split := List.takeWhile_append_dropWhile (p := (· != pad)) (l := text)
          rwa [not_not.mp padded, List.append_nil] at split
        obtain ⟨same, small⟩ := symbols_of_allBits body
        rw [sextets_of_lastBytes small read, same, unpadded]

/-- Nothing is read but the symbols of a key, for keys of any length. -/
theorem symbols_of_decodeFrom {offset : Nat} {text key : Bytes}
    (read : decodeFrom offset text = .ok key) : (sextets key).map symbolByte = text := by
  fun_induction decodeFrom offset text generalizing key with
  | case1 =>
    cases read
    rfl
  | case2 offset a b c d e rest ih =>
    cases group : allBits offset [a, b, c, d] with
    | error e =>
      rw [group] at read
      cases read
    | ok numbers =>
      obtain ⟨same, small⟩ := symbols_of_allBits group
      match numbers, same with
      | [p, q, r, s], same =>
        rw [group] at read
        cases more : decodeFrom (offset + 4) (e :: rest) with
        | error e =>
          simp only [more, bind, Except.bind] at read
          cases read
        | ok others =>
          simp only [more, bind, Except.bind] at read
          cases read
          rw [sextets_threeBytes small]
          exact congrArg₂ (· ++ ·) same (ih more)
  | case3 => exact symbols_of_decodeTail read

/-- A text that is read as a key is the text of that key. -/
theorem encode_of_decode {text : String} {key : Bytes} (read : decode text = .ok key) :
    encode key = text := by
  unfold decode at read
  dsimp only at read
  split at read
  · cases read
  · refine Bytes.ofText_injective ?_
    rw [ofText_encode, symbols_of_decodeFrom read]

/-- No two texts are read as the same key. -/
theorem decode_injective {text other : String} {key : Bytes} (read : decode text = .ok key)
    (readOther : decode other = .ok key) : text = other := by
  rw [← encode_of_decode read, encode_of_decode readOther]

end GroupReplay.Key
