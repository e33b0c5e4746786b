import GroupReplay.Proofs.KeyReading
import Mathlib.Logic.Function.Basic

/-!
Which texts spell keys.  A key is taken apart into numbers of six bits, so that two or three of them
are left over for its last one or two bytes; the last of these has bits that belong to no byte and are
zero.  Every list of numbers with that property comes from a key, and so every text of the right symbols
and length whose last symbol has no other bits set is the text of one.  Writing and reading are inverse
to each other between keys and these texts, and no other text is read.
-/

namespace GroupReplay.Key

/-! ### Numbers of six bits -/

/-- The values of the bits that are not used in the last of so many numbers: below four bits in the
second of a group, below two in the third. -/
def spare (length : Nat) : Nat :=
  if length % 4 = 2 then 16 else if length % 4 = 3 then 4 else 1

/-- Numbers that make up whole bytes and have no bit besides. -/
structure Whole (numbers : List Nat) : Prop where
  length : numbers.length % 4 ≠ 1
  last : ∀ last, numbers.getLast? = some last → last % spare numbers.length = 0

/-- Groups of four before other numbers change nothing about these. -/
theorem Whole.cons_four_iff {a b c d : Nat} {numbers : List Nat} :
    Whole (a :: b :: c :: d :: numbers) ↔ Whole numbers := by
  have sameLength : (a :: b :: c :: d :: numbers).length % 4 = numbers.length % 4 := by
    simp only [List.length_cons]
    omega
  have sameSpare : spare (a :: b :: c :: d :: numbers).length = spare numbers.length := by
    simp only [spare, sameLength]
  cases numbers with
  | nil =>
    exact ⟨fun _ => ⟨by simp, nofun⟩, fun _ => ⟨by simp, fun last _ => by simp [spare, Nat.mod_one]⟩⟩
  | cons next rest =>
    have sameLast : (a :: b :: c :: d :: next :: rest).getLast? = (next :: rest).getLast? := by
      simp
    constructor
    · rintro ⟨length, last⟩
      rw [sameLength] at length
      rw [sameLast, sameSpare] at last
      exact ⟨length, last⟩
    · rintro ⟨length, last⟩
      refine ⟨sameLength ▸ length, ?_⟩
      rw [sameLast, sameSpare]
      exact last

/-- A key is taken apart into numbers that make up whole bytes. -/
theorem whole_sextets (key : Bytes) : Whole (sextets key) := by
  fun_induction sextets key with
  | case1 x y z rest ih => exact Whole.cons_four_iff.mpr ih
  | case2 x y =>
    refine ⟨by simp, fun last ends => ?_⟩
    obtain rfl : y.toNat % 16 * 4 = last := Option.some.inj ends
    exact Nat.mul_mod_left _ 4
  | case3 x =>
    refine ⟨by simp, fun last ends => ?_⟩
    obtain rfl : x.toNat % 4 * 16 = last := Option.some.inj ends
    exact Nat.mul_mod_left _ 16
  | case4 => exact ⟨by simp, by simp⟩

/-- All numbers that make up whole bytes come from a key. -/
theorem exists_sextets : ∀ {numbers : List Nat}, (∀ bits ∈ numbers, bits < 64) → Whole numbers →
    ∃ key, sextets key = numbers
  | [], _, _ => ⟨[], rfl⟩
  | [_], _, whole => absurd rfl whole.length
  | [a, b], small, whole =>
    have read : lastBytes 0 [] [a, b] = .ok _ := if_pos (whole.last b rfl)
    ⟨_, sextets_of_lastBytes small read⟩
  | [a, b, c], small, whole =>
    have read : lastBytes 0 [] [a, b, c] = .ok _ := if_pos (whole.last c rfl)
    ⟨_, sextets_of_lastBytes small read⟩
  | a :: b :: c :: d :: rest, small, whole => by
    obtain ⟨four, others⟩ := List.forall_mem_append.mp
      (show ∀ bits ∈ [a, b, c, d] ++ rest, bits < 64 from small)
    obtain ⟨key, same⟩ := exists_sextets others (Whole.cons_four_iff.mp whole)
    exact ⟨threeBytes a b c d ++ key, by rw [sextets_threeBytes four, same]⟩

/-! ### Texts -/

/-- The symbols that keys are written in, each at the place of the bits that it stands for. -/
def alphabet : List Char :=
  "ABCDEFGHIJKLMNOPQRSTUVWXYZabcdefghijklmnopqrstuvwxyz0123456789-_".toList

/-- A text of symbols alone, without padding, of a length that leaves no single symbol over, and with
no bit set in its last symbol that belongs to no byte. -/
structure Canonical (text : String) : Prop where
  symbols : ∀ char ∈ text.toList, char ∈ alphabet
  length : text.length % 4 ≠ 1
  last : ∀ last, text.toList.getLast? = some last → alphabet.idxOf last % spare text.length = 0

private theorem symbol_places : ∀ bits : Fin 64,
    symbol bits ∈ alphabet ∧ alphabet.idxOf (symbol bits) = bits := by decide +kernel

private theorem place_symbols : ∀ char ∈ alphabet,
    alphabet.idxOf char < 64 ∧ symbol (alphabet.idxOf char) = char := by
  have each : alphabet.all fun char =>
      alphabet.idxOf char < 64 ∧ symbol (alphabet.idxOf char) = char := by decide +kernel
  exact fun char member => of_decide_eq_true (List.all_eq_true.mp each char member)

/-- The text of a key is canonical. -/
theorem canonical_encode (key : Bytes) : Canonical (encode key) := by
  have small := sextets_lt key
  have whole := whole_sextets key
  have written : (encode key).toList = (sextets key).map symbol := by
    rw [encode, String.toList_ofList, symbols_eq]
  have asLong : (encode key).length = (sextets key).length := by
    rw [← String.length_toList, written, List.length_map]
  refine ⟨?_, asLong ▸ whole.length, ?_⟩
  · intro char member
    rw [written] at member
    obtain ⟨bits, among, rfl⟩ := List.mem_map.mp member
    exact (symbol_places ⟨bits, small bits among⟩).1
  · intro last ends
    rw [written, List.getLast?_map] at ends
    obtain ⟨bits, lastBits, rfl⟩ := Option.map_eq_some_iff.mp ends
    have place := (symbol_places ⟨bits, small bits (List.mem_of_getLast? lastBits)⟩).2
    rw [place, asLong]
    exact whole.last bits lastBits

/-- A canonical text is the text of a key. -/
theorem exists_encode {text : String} (canonical : Canonical text) : ∃ key, encode key = text := by
  let numbers := text.toList.map alphabet.idxOf
  have asLong : numbers.length = text.length := by
    rw [List.length_map, String.length_toList]
  have small : ∀ bits ∈ numbers, bits < 64 := by
    intro bits member
    obtain ⟨char, among, rfl⟩ := List.mem_map.mp member
    exact (place_symbols char (canonical.symbols char among)).1
  have whole : Whole numbers := by
    refine ⟨asLong ▸ canonical.length, fun last ends => ?_⟩
    rw [List.getLast?_map] at ends
    obtain ⟨char, lastChar, rfl⟩ := Option.map_eq_some_iff.mp ends
    rw [asLong]
    exact canonical.last char lastChar
  have spelled : numbers.map symbol = text.toList := by
    rw [List.map_map]
    have each : ∀ char ∈ text.toList, (symbol ∘ alphabet.idxOf) char = id char := fun char among =>
      (place_symbols char (canonical.symbols char among)).2
    rw [List.map_congr_left each, List.map_id]
  obtain ⟨key, same⟩ := exists_sextets small whole
  exact ⟨key, by rw [encode, symbols_eq, same, spelled, String.ofList_toList]⟩

/-- A text is read exactly if it is canonical. -/
theorem decodes_iff {text : String} : (∃ key, decode text = .ok key) ↔ Canonical text := by
  constructor
  · rintro ⟨key, read⟩
    exact encode_of_decode read ▸ canonical_encode key
  · intro canonical
    obtain ⟨key, rfl⟩ := exists_encode canonical
    exact ⟨key, decode_encode key⟩

/-- A text that is not canonical is refused. -/
theorem refused_of_not_canonical {text : String} (other : ¬ Canonical text) :
    ∃ e, decode text = .error e := by
  cases read : decode text with
  | error e => exact ⟨e, rfl⟩
  | ok key => exact absurd (decodes_iff.mp ⟨key, read⟩) other

/-- The padding of other spellings and the two symbols that they have in place of the dash and the
underscore. -/
private theorem foreign_symbols : ∀ char ∈ ['=', '+', '/'], char ∉ alphabet := by
  have each : ['=', '+', '/'].all fun char => char ∉ alphabet := by decide +kernel
  exact fun char member => of_decide_eq_true (List.all_eq_true.mp each char member)

/-- Keys and canonical texts stand for each other.  A key is written in symbols of the alphabet alone
and read back; a text that is read is the one that was written for what it is read as; exactly the
canonical texts are read, and all others are refused, those with padding or with a symbol of the
standard alphabet among them.  So keys differ exactly if their texts do. -/
theorem texts_are_keys :
    (∀ key, (∀ char ∈ (encode key).toList, char ∈ alphabet) ∧ decode (encode key) = .ok key) ∧
      (∀ text key, decode text = .ok key → encode key = text) ∧
      (∀ text, (∃ key, decode text = .ok key) ↔ Canonical text) ∧
      (∀ text, ¬ Canonical text → ∃ e, decode text = .error e) ∧
      (∀ text, (∃ char ∈ text.toList, char ∈ ['=', '+', '/']) → ∃ e, decode text = .error e) ∧
      (∀ a b, encode a = encode b ↔ a = b) ∧
      ∀ text other a b, decode text = .ok a → decode other = .ok b → (text = other ↔ a = b) := by
  refine ⟨fun key => ⟨(canonical_encode key).symbols, decode_encode key⟩,
    fun _ _ => encode_of_decode, fun _ => decodes_iff, fun _ => refused_of_not_canonical, ?_,
    fun a b => ⟨encode_injective, congrArg encode⟩, ?_⟩
  · rintro text ⟨char, member, foreign⟩
    exact refused_of_not_canonical fun canonical =>
      foreign_symbols char foreign (canonical.symbols char member)
  · intro text other a b read readOther
    constructor
    · rintro rfl
      exact Except.ok.inj (read.symm.trans readOther)
    · rintro rfl
      exact decode_injective read readOther

/-- The byte 0xff is written with four bits to spare; its padded text, its text in the standard
alphabet and its text with one of the spare bits set are refused. -/
theorem texts_of_last_byte :
    decode "_w" = .ok [0xff] ∧ encode [0xff] = "_w" ∧
      (∃ e, decode "_w==" = .error e) ∧ (∃ e, decode "/w" = .error e) ∧
      ¬ Canonical "_x" ∧ (∃ e, decode "_x" = .error e) ∧
      decode "__8" = .ok [0xff, 0xff] ∧ ("_w" = "__8" ↔ ([0xff] : Bytes) = [0xff, 0xff]) := by
  obtain ⟨_, written, _, others, foreign, _, agree⟩ := texts_are_keys
  have read : decode "_w" = .ok [0xff] := by decide +kernel
  have longer : decode "__8" = .ok [0xff, 0xff] := by decide +kernel
  have loose : ¬ Canonical "_x" := fun canonical =>
    absurd (canonical.last 'x' (by decide +kernel)) (by decide +kernel)
  exact ⟨read, written _ _ read, foreign _ ⟨'=', by decide +kernel, by decide⟩,
    foreign _ ⟨'/', by decide +kernel, by decide⟩, loose, others _ loose, longer,
    agree _ _ _ _ read longer⟩

end GroupReplay.Key
