import GroupReplay.Disk.Database
import GroupReplay.Proofs.Directories

/-!
How the path of a store is read as an address.  The address is the path with a scheme before it, and it
is taken apart again: schemes are dropped as often as they stand there, a question mark begins options,
escapes are replaced by bytes, and what begins like the address of a file is one.  A path of ordinary
names that holds none of this is read as itself; each reading of another kind makes it shorter, so that
no other path comes out as the names it has.
-/

namespace GroupReplay.Disk

/-! ### Sizes -/

/-- The end of a text has at most its size. -/
theorem utf8ByteSize_le_of_suffix {chars others : List Char} (ends : chars <:+ others) :
    (String.ofList chars).utf8ByteSize ≤ (String.ofList others).utf8ByteSize := by
  obtain ⟨before, rfl⟩ := ends
  rw [String.ofList_append, String.utf8ByteSize_append]
  exact Nat.le_add_left _ _

/-- What a text is left with after its beginning. -/
theorem utf8ByteSize_drop {text start : String} (begins : text.startsWith start) :
    (String.ofList (text.toList.drop start.length)).utf8ByteSize + start.utf8ByteSize =
      text.utf8ByteSize := by
  obtain ⟨rest, whole⟩ := String.startsWith_string_iff.mp begins
  have left : text.toList.drop start.length = rest := by
    rw [← whole, ← String.length_toList, List.drop_left]
  obtain rfl : start ++ String.ofList rest = text := by
    rw [← String.toList_inj, String.toList_append, String.toList_ofList, whole]
  rw [left, String.utf8ByteSize_append, Nat.add_comm]

theorem length_ofText (text : String) : (Bytes.ofText text).length = text.utf8ByteSize := by
  simp [Bytes.ofText]

theorem utf8ByteSize_of_toText? {bytes : Bytes} {text : String}
    (read : Bytes.toText? bytes = some text) : text.utf8ByteSize = bytes.length := by
  rw [← length_ofText, Bytes.ofText_of_toText? read]

/-! ### Escapes -/

/-- Somewhere a percent sign is followed by two hexadecimal digits. -/
def Escaped (bytes : Bytes) : Prop :=
  ∃ before high low after, bytes = before ++ 37 :: high :: low :: after ∧
    (hexDigit? high).isSome ∧ (hexDigit? low).isSome

theorem Escaped.cons {bytes : Bytes} (escaped : Escaped bytes) (byte : UInt8) :
    Escaped (byte :: bytes) := by
  obtain ⟨before, high, low, after, rfl, digits⟩ := escaped
  exact ⟨byte :: before, high, low, after, rfl, digits⟩

/-- Where an escape stands in what is longer by one byte. -/
theorem escaped_cons_iff {byte : UInt8} {bytes : Bytes} :
    Escaped (byte :: bytes) ↔
      (byte = 37 ∧ ∃ high low after, bytes = high :: low :: after ∧
        (hexDigit? high).isSome ∧ (hexDigit? low).isSome) ∨ Escaped bytes := by
  constructor
  · rintro ⟨_ | ⟨first, before⟩, high, low, after, whole, digits⟩
    · obtain ⟨rfl, rfl⟩ := List.cons.inj whole
      exact .inl ⟨rfl, high, low, after, rfl, digits⟩
    · obtain ⟨rfl, rfl⟩ := List.cons.inj whole
      exact .inr ⟨before, high, low, after, rfl, digits⟩
  · rintro (⟨rfl, high, low, after, rfl, digits⟩ | escaped)
    · exact ⟨[], high, low, after, rfl, digits⟩
    · exact escaped.cons byte

theorem not_escaped_of_no_percent {bytes : Bytes} (none : 37 ∉ bytes) : ¬ Escaped bytes := by
  rintro ⟨before, high, low, after, rfl, _⟩
  exact none (by simp)

/-- Bytes without escapes are left as they are, and with one they get fewer. -/
theorem unescape_cases (bytes : Bytes) :
    (¬ Escaped bytes ∧ unescape bytes = bytes) ∨
      (Escaped bytes ∧ (unescape bytes).length < bytes.length) := by
  -- A byte that begins no escape is kept before what the rest comes to.
  have kept {byte : UInt8} {rest read : Bytes} (later : Escaped (byte :: rest) → Escaped rest)
      (cases : (¬ Escaped rest ∧ read = rest) ∨ (Escaped rest ∧ read.length < rest.length)) :
      (¬ Escaped (byte :: rest) ∧ byte :: read = byte :: rest) ∨
        (Escaped (byte :: rest) ∧ (byte :: read).length < (byte :: rest).length) := by
    obtain ⟨plain, same⟩ | ⟨escaped, fewer⟩ := cases
    · exact .inl ⟨fun escaped => plain (later escaped), by rw [same]⟩
    · exact .inr ⟨escaped.cons byte, by simpa using fewer⟩
  fun_induction unescape bytes with
  | case1 high low rest h l isLow isHigh ih =>
    refine .inr ⟨⟨[], high, low, rest, rfl, by simp [isHigh], by simp [isLow]⟩, ?_⟩
    have atMost : (unescape rest).length ≤ rest.length := by
      obtain ⟨_, same⟩ | ⟨_, fewer⟩ := ih
      · exact Nat.le_of_eq (congrArg List.length same)
      · exact Nat.le_of_lt fewer
    simp only [List.length_cons]
    omega
  | case2 high low rest other ih =>
    refine kept (fun escaped => (escaped_cons_iff.mp escaped).resolve_left ?_) ih
    rintro ⟨_, _, _, _, same, isHigh, isLow⟩
    obtain ⟨rfl, rfl, rfl⟩ : high = _ ∧ low = _ ∧ rest = _ := by simpa using same
    exact other _ _ (Option.some_get isHigh).symm (Option.some_get isLow).symm
  | case3 byte rest other ih =>
    refine kept (fun escaped => (escaped_cons_iff.mp escaped).resolve_left ?_) ih
    rintro ⟨rfl, high, low, after, rfl, _⟩
    exact other high low after rfl rfl
  | case4 =>
    refine .inl ⟨?_, rfl⟩
    rintro ⟨before, high, low, after, empty, _⟩
    exact absurd empty.symm (by simp)

theorem unescape_of_not_escaped {bytes : Bytes} (plain : ¬ Escaped bytes) :
    unescape bytes = bytes :=
  ((unescape_cases bytes).resolve_right fun escaped => plain escaped.1).2

theorem length_unescape_lt {bytes : Bytes} (escaped : Escaped bytes) :
    (unescape bytes).length < bytes.length :=
  ((unescape_cases bytes).resolve_left fun plain => plain.1 escaped).2

theorem length_unescape_le (bytes : Bytes) : (unescape bytes).length ≤ bytes.length := by
  by_cases escaped : Escaped bytes
  · exact Nat.le_of_lt (length_unescape_lt escaped)
  · exact Nat.le_of_eq (congrArg List.length (unescape_of_not_escaped escaped))

/-! ### Schemes -/

theorem dropRepeated_of_not_begins {mark text : List Char} (other : ¬ mark <+: text) (fuel : Nat) :
    dropRepeated mark fuel text = text := by
  cases fuel with
  | zero => rfl
  | succ fuel => rw [dropRepeated, if_neg fun begins => other (List.isPrefixOf_iff_prefix.mp begins)]

theorem dropRepeated_suffix (mark : List Char) (fuel : Nat) (text : List Char) :
    dropRepeated mark fuel text <:+ text := by
  fun_induction dropRepeated mark fuel text with
  | case1 text => exact List.suffix_rfl
  | case2 text fuel begins ih => exact ih.trans (List.drop_suffix _ _)
  | case3 text fuel other => exact List.suffix_rfl

/-- What is left of an address without the scheme that was put before a relative path: the path, without
the schemes that it begins with itself. -/
theorem databaseText_relative {path : String} (relative : ¬ path.startsWith "/") :
    databaseText path =
      String.ofList (dropRepeated "sqlite:".toList (path.length + 6) path.toList) := by
  have single : ¬ "sqlite://".toList <+: "sqlite:".toList ++ path.toList := by
    rw [show "sqlite://".toList = "sqlite:".toList ++ "//".toList by decide,
      List.prefix_append_right_inj]
    exact fun slashes => relative (String.startsWith_string_iff.mpr
      (.trans (show "/".toList <+: "//".toList by decide) slashes))
  have begins : "sqlite:".toList.isPrefixOf ("sqlite:".toList ++ path.toList) :=
    List.isPrefixOf_iff_prefix.mpr (List.prefix_append _ _)
  have long : ("sqlite:".toList ++ path.toList).length = path.length + 6 + 1 := by
    rw [List.length_append, String.length_toList, String.length_toList, Nat.add_comm]
    rfl
  rw [databaseText]
  simp only [dropRepeated_of_not_begins single, long]
  rw [dropRepeated, if_pos begins, List.drop_left]

/-- A path that begins with no scheme is the text of its database. -/
theorem databaseText_of_no_scheme {path : String} (relative : ¬ path.startsWith "/")
    (other : ¬ path.startsWith "sqlite:") : databaseText path = path := by
  rw [databaseText_relative relative, dropRepeated_of_not_begins, String.ofList_toList]
  exact fun begins => other (String.startsWith_string_iff.mpr begins)

/-- A path that begins with a scheme is longer than the text of its database. -/
theorem utf8ByteSize_databaseText_lt {path : String} (relative : ¬ path.startsWith "/")
    (begins : path.startsWith "sqlite:") :
    (databaseText path).utf8ByteSize < path.utf8ByteSize := by
  have prefixed := String.startsWith_string_iff.mp begins
  have shorter : (databaseText path).utf8ByteSize ≤
      (String.ofList (path.toList.drop "sqlite:".length)).utf8ByteSize := by
    rw [databaseText_relative relative, dropRepeated,
      if_pos (List.isPrefixOf_iff_prefix.mpr prefixed)]
    exact utf8ByteSize_le_of_suffix (dropRepeated_suffix _ _ _)
  have scheme : "sqlite:".utf8ByteSize = 7 := by decide
  have whole := utf8ByteSize_drop begins
  omega

/-! ### Addresses of files -/

theorem addressedPath?_of_plain {text : String} (other : ¬ text.startsWith "file:") :
    addressedPath? text = some text :=
  if_neg other

theorem behindHost?_suffix {rest named : List Char} (behind : behindHost? rest = some named) :
    named <:+ rest := by
  rw [behindHost?] at behind
  dsimp only at behind
  split at behind
  · split at behind
    · cases behind
      exact (List.dropWhile_suffix _).trans (List.drop_suffix _ _)
    · cases behind
  · cases behind
    exact List.suffix_rfl

/-- The address of a file is longer than the path that it names. -/
theorem utf8ByteSize_addressedPath?_lt {text path : String} (begins : text.startsWith "file:")
    (read : addressedPath? text = some path) : path.utf8ByteSize < text.utf8ByteSize := by
  rw [addressedPath?, if_pos begins] at read
  obtain ⟨named, behind, read⟩ := Option.bind_eq_some_iff.mp read
  have fewer : path.utf8ByteSize ≤ (String.ofList named).utf8ByteSize := calc
    path.utf8ByteSize = _ := utf8ByteSize_of_toText? read
    _ ≤ _ := (List.takeWhile_prefix _).length_le
    _ ≤ _ := length_unescape_le _
    _ ≤ (Bytes.ofText (String.ofList named)).length := (List.takeWhile_prefix _).length_le
    _ = (String.ofList named).utf8ByteSize := length_ofText _
  have shorter := utf8ByteSize_le_of_suffix (behindHost?_suffix behind)
  have whole := utf8ByteSize_drop begins
  rw [show "file:".length = 5 by decide, show "file:".utf8ByteSize = 5 by decide] at whole
  omega

/-! ### Paths as places -/

/-- A path leads to a place that takes up no more bytes than the path and where it starts. -/
theorem size_lexical_le (place : Place) (path : String) :
    size (lexical place path) ≤ size place + size (names path) := by
  have one (place : Place) (step : String) :
      size (if step = "" ∨ step = "." then place
        else if step = ".." then place.dropLast else place ++ [step]) ≤ size place + size [step] := by
    split
    · exact Nat.le_add_right _ _
    · split
      · exact Nat.le_trans (size_mono (List.dropLast_prefix place)) (Nat.le_add_right _ _)
      · exact Nat.le_of_eq (size_append place [step])
  rw [lexical]
  generalize names path = steps
  induction steps generalizing place with
  | nil => exact Nat.le_refl _
  | cons step rest ih =>
    have all : size (step :: rest) = size [step] + size rest := size_append [step] rest
    have first := one place step
    have others := ih (if step = "" ∨ step = "." then place
      else if step = ".." then place.dropLast else place ++ [step])
    rw [List.foldl_cons]
    omega

/-- Ordinary names lead on, each to the entry of its name. -/
theorem lexical_of_ordinary {path : String} (ordinary : ∀ name ∈ names path, OrdinaryName name)
    (place : Place) : lexical place path = place ++ names path := by
  rw [lexical]
  generalize names path = steps at ordinary
  induction steps generalizing place with
  | nil => rw [List.foldl_nil, List.append_nil]
  | cons step rest ih =>
    have first := ordinary step List.mem_cons_self
    rw [List.foldl_cons, if_neg (not_or.mpr ⟨first.notEmpty, first.notHere⟩), if_neg first.notAbove,
      ih _ fun name among => ordinary name (List.mem_cons_of_mem _ among), List.append_assoc,
      List.singleton_append]

/-! ### Paths that are read as themselves -/

/-- A relative path of ordinary names, other than the one that stands for a store kept nowhere. -/
structure Ordinary (path : String) : Prop where
  kept : path ≠ inMemory
  names : ∀ name ∈ Disk.names path, OrdinaryName name

/-- A path that is read as itself when it stands in an address. -/
structure Literal (path : String) : Prop where
  noScheme : ¬ path.startsWith "sqlite:"
  noOptions : '?' ∉ path.toList
  noEscape : ¬ Escaped (Bytes.ofText path)
  noFileAddress : ¬ path.startsWith "file:"

/-- A path without colons, question marks and percent signs is read as itself. -/
theorem Literal.of_plain {path : String} (noColon : ':' ∉ path.toList) (noOptions : '?' ∉ path.toList)
    (noPercent : 37 ∉ Bytes.ofText path) : Literal path := by
  have noMark {mark : String} (colon : ':' ∈ mark.toList) : ¬ path.startsWith mark := fun begins =>
    noColon ((String.startsWith_string_iff.mp begins).subset colon)
  exact ⟨noMark (by decide), noOptions, not_escaped_of_no_percent noPercent, noMark (by decide)⟩

/-- The place of the file that a relative path spells. -/
def spelled (disk : Disk) (path : String) : Place := disk.here ++ names path

variable {disk : Disk} {path : String}

theorem Ordinary.relative (ordinary : Ordinary path) : ¬ path.startsWith "/" :=
  relative_of_ordinary ordinary.names

theorem Ordinary.start (ordinary : Ordinary path) (disk : Disk) : disk.start path = disk.here :=
  if_neg ordinary.relative

theorem Ordinary.lexical (ordinary : Ordinary path) (disk : Disk) :
    Disk.lexical (disk.start path) path = disk.spelled path := by
  rw [ordinary.start, lexical_of_ordinary ordinary.names, spelled]

theorem Ordinary.holdsNul (ordinary : Ordinary path) : Store.holdsNul path = false := by
  rw [Store.holdsNul, List.any_eq_false]
  intro char member
  by_cases slash : char = '/'
  · subst slash
    decide
  · obtain ⟨name, among, inside⟩ := exists_name_of_mem member slash
    exact List.any_eq_false.mp (ordinary.names name among).clear char inside

theorem Ordinary.named (ordinary : Ordinary path) : ¬ (path = "" ∨ path = inMemory) := by
  rintro (rfl | same)
  · exact (ordinary.names "" (by decide)).notEmpty rfl
  · exact ordinary.kept same

/-- A path that is read as itself is the path of its database. -/
theorem databasePath?_literal (ordinary : Ordinary path) (literal : Literal path) :
    databasePath? path = some path := by
  have noOptions : ¬ path.toList.contains '?' := by simpa using literal.noOptions
  rw [databasePath?, if_neg noOptions, unescape_of_not_escaped literal.noEscape,
    Bytes.toText?_ofText, Option.bind_some, ordinary.holdsNul,
    addressedPath?_of_plain literal.noFileAddress]
  rfl

/-- The database of a path that is read as itself is the file at that path. -/
theorem openDatabase_literal (ordinary : Ordinary path) (literal : Literal path) (disk : Disk) :
    disk.openDatabase (databaseText path) = disk.openFile path := by
  rw [databaseText_of_no_scheme ordinary.relative literal.noScheme, openDatabase,
    if_neg ordinary.kept, databasePath?_literal ordinary literal]

/-- What is opened at a path is kept nowhere, if the path says so, or else in the file that the path
leads to, at a place that is short enough. -/
theorem keeping_of_openFile {keeping : Keeping} {tables : Store.Tables} {opened : Disk}
    (opens : disk.openFile path = (some (keeping, tables), opened)) :
    (keeping = .nowhere ∧ (path = "" ∨ path = inMemory)) ∨
      (keeping = .onDisk (lexical (disk.start path) path) ∧
        Short (lexical (disk.start path) path)) := by
  rw [openFile] at opens
  split at opens
  · next unnamed =>
    cases opens
    exact .inl ⟨rfl, unnamed⟩
  · dsimp only at opens
    split at opens
    · cases opens
    · split at opens
      · cases opens
      · next short => split at opens <;> cases opens <;> exact .inr ⟨rfl, not_not.mp short⟩

theorem place_of_openFile {place : Place} {tables : Store.Tables} {opened : Disk}
    (opens : disk.openFile path = (some (.onDisk place, tables), opened)) :
    place = lexical (disk.start path) path ∧ Short place := by
  obtain ⟨nowhere, _⟩ | ⟨same, short⟩ := keeping_of_openFile opens
  · cases nowhere
  · cases same
    exact ⟨rfl, short⟩

/-- A database in a file is that of the path that its text names. -/
theorem path_of_openDatabase {text : String} {place : Place} {tables : Store.Tables} {opened : Disk}
    (opens : disk.openDatabase text = (some (.onDisk place, tables), opened)) :
    ∃ path, databasePath? text = some path ∧
      disk.openFile path = (some (.onDisk place, tables), opened) := by
  rw [openDatabase] at opens
  split at opens
  · cases opens
  · split at opens
    · cases opens
    · next path named => exact ⟨path, named, opens⟩

/-- The ways in which a text is read before it names a path. -/
theorem databasePath?_eq_some {text path : String} (named : databasePath? text = some path) :
    '?' ∉ text.toList ∧ ∃ name, Bytes.toText? (unescape (Bytes.ofText text)) = some name ∧
      addressedPath? name = some path := by
  rw [databasePath?] at named
  split at named
  · cases named
  · next noOptions =>
    obtain ⟨name, read, named⟩ := Option.bind_eq_some_iff.mp named
    split at named
    · cases named
    · exact ⟨by simpa using noOptions, name, read, named⟩

/-- Only a path that is read as itself comes out at the place that it spells: whatever is dropped or
replaced in reading leaves too few bytes. -/
theorem literal_of_opened (ordinary : Ordinary path) {tables : Store.Tables} {opened : Disk}
    (opens : disk.openDatabase (databaseText path) =
      (some (.onDisk (disk.spelled path), tables), opened)) : Literal path := by
  obtain ⟨found, named, opens⟩ := path_of_openDatabase opens
  obtain ⟨noOptions, name, read, addressed⟩ := databasePath?_eq_some named
  have start : size (disk.start found) ≤ size disk.here := by
    rw [Disk.start]
    split
    · exact Nat.zero_le _
    · exact Nat.le_refl _
  have enough : path.utf8ByteSize ≤ found.utf8ByteSize := by
    have leads := size_lexical_le (disk.start found) found
    rw [← (place_of_openFile opens).1, spelled, size_append, size_names, size_names] at leads
    omega
  have foundFewer : found.utf8ByteSize ≤ name.utf8ByteSize := by
    by_cases begins : name.startsWith "file:"
    · exact Nat.le_of_lt (utf8ByteSize_addressedPath?_lt begins addressed)
    · rw [addressedPath?_of_plain begins] at addressed
      exact Nat.le_of_eq (congrArg String.utf8ByteSize (Option.some.inj addressed).symm)
  have nameSize := utf8ByteSize_of_toText? read
  have nameFewer := length_unescape_le (Bytes.ofText (databaseText path))
  rw [length_ofText] at nameFewer
  have noScheme : ¬ path.startsWith "sqlite:" := by
    intro begins
    have := utf8ByteSize_databaseText_lt ordinary.relative begins
    omega
  rw [databaseText_of_no_scheme ordinary.relative noScheme] at noOptions read nameSize nameFewer
  have noEscape : ¬ Escaped (Bytes.ofText path) := by
    intro escaped
    have := length_unescape_lt escaped
    rw [length_ofText] at this
    omega
  rw [unescape_of_not_escaped noEscape, Bytes.toText?_ofText] at read
  obtain rfl := Option.some.inj read
  refine ⟨noScheme, noOptions, noEscape, fun begins => ?_⟩
  have := utf8ByteSize_addressedPath?_lt begins addressed
  omega

end GroupReplay.Disk
