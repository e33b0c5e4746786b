import GroupReplay.Disk.Basic
import Mathlib.Data.List.Basic

/-!
Directories made on the way to a place.  A way of ordinary names is followed step by step to where the
names lead, as far as there are directories; where nothing is in the way the missing ones are made, and
nothing else on the disk changes.  Paths with different texts have different names.
-/

namespace GroupReplay.Disk

/-! ### Names -/

/-- A name that an entry of a directory can have. -/
structure OrdinaryName (name : String) : Prop where
  notEmpty : name ≠ ""
  notHere : name ≠ "."
  notAbove : name ≠ ".."
  fits : name.utf8ByteSize ≤ longestName
  clear : Store.holdsNul name = false

instance (name : String) : Decidable (OrdinaryName name) :=
  decidable_of_iff
    (name ≠ "" ∧ name ≠ "." ∧ name ≠ ".." ∧ name.utf8ByteSize ≤ longestName ∧
      Store.holdsNul name = false)
    ⟨fun ⟨a, b, c, d, e⟩ => ⟨a, b, c, d, e⟩, fun ⟨a, b, c, d, e⟩ => ⟨a, b, c, d, e⟩⟩

theorem names_ne_nil (path : String) : names path ≠ [] := by
  simp [names]

/-- A path is spelled by its names. -/
theorem names_injective {path other : String} (same : names path = names other) : path = other := by
  have lists : path.toList.splitOn '/' = other.toList.splitOn '/' :=
    (List.map_injective_iff.mpr fun _ _ => String.ofList_inj.mp) same
  have texts := congrArg (['/'].intercalate ·) lists
  simp only [List.intercalate_splitOn] at texts
  exact String.toList_inj.mp texts

/-- A character that is no slash belongs to the first part. -/
private theorem exists_first_part (char : Char) (other : char ≠ '/') (rest : List Char) :
    ∃ first parts, rest.splitOn '/' = first :: parts ∧
      (char :: rest).splitOn '/' = (char :: first) :: parts := by
  obtain ⟨first, parts, split⟩ := List.exists_cons_of_ne_nil (List.splitOn_ne_nil '/' rest)
  refine ⟨first, parts, split, ?_⟩
  rw [List.splitOn_cons_eq_if_modifyHead, split]
  simp [other]

private theorem splitOn_slash (rest : List Char) :
    ('/' :: rest).splitOn '/' = [] :: rest.splitOn '/' := by
  rw [List.splitOn_cons_eq_if_modifyHead]
  simp

/-- The characters of a path that are no slashes are characters of its names. -/
theorem exists_name_of_mem {path : String} {char : Char} (member : char ∈ path.toList)
    (other : char ≠ '/') : ∃ name ∈ names path, char ∈ name.toList := by
  have parts : ∀ chars : List Char, char ∈ chars → ∃ part ∈ chars.splitOn '/', char ∈ part := by
    intro chars
    induction chars with
    | nil => simp
    | cons first rest ih =>
      intro member
      by_cases slash : first = '/'
      · subst slash
        obtain ⟨part, among, inside⟩ := ih ((List.mem_cons.mp member).resolve_left other)
        rw [splitOn_slash]
        exact ⟨part, List.mem_cons_of_mem _ among, inside⟩
      · obtain ⟨part, parts, split, more⟩ := exists_first_part first slash rest
        rw [more]
        obtain rfl | later := List.mem_cons.mp member
        · exact ⟨_, List.mem_cons_self, List.mem_cons_self⟩
        · obtain ⟨found, among, inside⟩ := ih later
          rw [split] at among
          obtain rfl | among := List.mem_cons.mp among
          · exact ⟨_, List.mem_cons_self, List.mem_cons_of_mem _ inside⟩
          · exact ⟨found, List.mem_cons_of_mem _ among, inside⟩
  obtain ⟨part, among, inside⟩ := parts _ member
  exact ⟨String.ofList part, List.mem_map_of_mem among, by rwa [String.toList_ofList]⟩

/-- A path of ordinary names does not start from the root. -/
theorem relative_of_ordinary {path : String} (ordinary : ∀ name ∈ names path, OrdinaryName name) :
    ¬ path.startsWith "/" := by
  intro begins
  obtain ⟨rest, whole⟩ := String.startsWith_string_iff.mp begins
  have parts : path.toList.splitOn '/' = [] :: rest.splitOn '/' := by
    rw [← whole]
    exact splitOn_slash rest
  refine (ordinary "" ?_).notEmpty rfl
  rw [names, parts]
  exact List.mem_cons_self

/-- None of the names of a path of ordinary names is idle. -/
theorem steps_of_ordinary {path : String} (ordinary : ∀ name ∈ names path, OrdinaryName name) :
    steps path = names path := by
  rw [steps]
  split
  · next rest parts =>
    rw [parts] at ordinary
    exact absurd rfl (ordinary "." List.mem_cons_self).notHere
  · refine List.filter_eq_self.mpr fun name among => ?_
    simp [(ordinary name among).notEmpty, (ordinary name among).notHere]

theorem size_cons (step : String) (further : List String) :
    size (step :: further) = step.utf8ByteSize + 1 + size further := rfl

theorem size_append (steps more : List String) : size (steps ++ more) = size steps + size more := by
  induction steps with
  | nil => exact (Nat.zero_add _).symm
  | cons step further ih => simp only [List.cons_append, size_cons, ih, Nat.add_assoc]

theorem size_mono {steps more : List String} (begins : steps <+: more) : size steps ≤ size more := by
  obtain ⟨rest, rfl⟩ := begins
  rw [size_append]
  exact Nat.le_add_right _ _

/-- The names of a path take up as many bytes as the path with a slash before it. -/
theorem size_names (path : String) : size (names path) = path.utf8ByteSize + 1 := by
  have bytes_cons (char : Char) (chars : List Char) :
      (String.ofList (char :: chars)).utf8ByteSize =
        char.utf8Size + (String.ofList chars).utf8ByteSize := by
    rw [String.ofList_cons, String.utf8ByteSize_append, String.utf8ByteSize_singleton]
  have parts : ∀ chars : List Char, size ((chars.splitOn '/').map String.ofList) =
      (String.ofList chars).utf8ByteSize + 1 := by
    intro chars
    induction chars with
    | nil => rfl
    | cons char rest ih =>
      by_cases slash : char = '/'
      · subst slash
        rw [splitOn_slash, List.map_cons, size_cons, ih, bytes_cons]
        have : Char.utf8Size '/' = 1 := by decide
        simp
        omega
      · obtain ⟨first, parts, split, more⟩ := exists_first_part char slash rest
        rw [split, List.map_cons, size_cons] at ih
        rw [more, List.map_cons, size_cons, bytes_cons, bytes_cons]
        omega
  rw [names, parts, String.ofList_toList]

/-! ### Following names -/

variable {disk : Disk} {place : Place}

/-- One step on from a directory, by an ordinary name. -/
theorem step_ordinary {name : String} (ordinary : OrdinaryName name)
    (directory : disk.at? place = some .directory) :
    disk.step place name =
      if (disk.at? (place ++ [name])).isNone then .error .absent else .ok (place ++ [name]) := by
  rw [step, if_neg (not_not.mpr directory), if_neg ordinary.notHere, if_neg ordinary.notAbove,
    if_neg (Nat.not_lt.mpr ordinary.fits)]

theorem follow_cons {name : String} (ordinary : OrdinaryName name)
    (directory : disk.at? place = some .directory) (rest : List String) :
    disk.follow place (name :: rest) =
      if (disk.at? (place ++ [name])).isNone then .error .absent
      else disk.follow (place ++ [name]) rest := by
  rw [follow, List.foldlM_cons, step_ordinary ordinary directory]
  split <;> rfl

/-- Where there are directories all the way, names lead on. -/
theorem follow_directories {names : List String} (ordinary : ∀ name ∈ names, OrdinaryName name)
    (way : ∀ above, above <+: names → disk.at? (place ++ above) = some .directory) :
    disk.follow place names = .ok (place ++ names) := by
  induction names generalizing place with
  | nil =>
    rw [List.append_nil]
    rfl
  | cons name rest ih =>
    have here : disk.at? place = some .directory := by simpa using way [] List.nil_prefix
    have next : disk.at? (place ++ [name]) = some .directory := way [name] (by simp)
    have onward : disk.follow (place ++ [name]) rest = .ok (place ++ [name] ++ rest) :=
      ih (fun other among => ordinary other (List.mem_cons_of_mem _ among))
        (fun above begins => by simpa using way (name :: above) (by simpa using begins))
    rw [follow_cons (ordinary name List.mem_cons_self) here, next, if_neg (by simp), onward,
      List.append_assoc, List.singleton_append]

theorem leadsToDirectory_of_way {names : List String}
    (ordinary : ∀ name ∈ names, OrdinaryName name)
    (way : ∀ above, above <+: names → disk.at? (place ++ above) = some .directory) :
    disk.leadsToDirectory place names = true := by
  simp [leadsToDirectory, follow_directories ordinary way, way names List.prefix_rfl]

/-- Nothing is in the way from a place: as far as names lead there are directories, and where there is
none there is nothing, there or further on. -/
def Clear (disk : Disk) (place : Place) (names : List String) : Prop :=
  ∀ above, above <+: names → disk.at? (place ++ above) = some .directory ∨
    ∀ further, disk.at? (place ++ above ++ further) = none

theorem Clear.begin {names more : List String} (clear : Clear disk place more)
    (begins : names <+: more) : Clear disk place names :=
  fun above among => clear above (among.trans begins)

/-- Where names lead to something, there are directories all the way. -/
theorem Clear.directories {names : List String} (clear : Clear disk place names)
    (there : disk.at? (place ++ names) ≠ none) :
    ∀ above, above <+: names → disk.at? (place ++ above) = some .directory := by
  intro above begins
  obtain directory | nothing := clear above begins
  · exact directory
  · obtain ⟨further, rfl⟩ := begins
    exact absurd (by simpa using nothing further) there

/-- Names that lead to nothing are followed as far as there are directories. -/
theorem follow_absent {names : List String} (ordinary : ∀ name ∈ names, OrdinaryName name)
    (clear : Clear disk place names) (here : disk.at? place = some .directory)
    (absent : disk.at? (place ++ names) = none) : disk.follow place names = .error .absent := by
  induction names generalizing place with
  | nil =>
    rw [List.append_nil, here] at absent
    cases absent
  | cons name rest ih =>
    rw [follow_cons (ordinary name List.mem_cons_self) here]
    cases next : disk.at? (place ++ [name]) with
    | none => rfl
    | some entry =>
      rw [if_neg (by simp)]
      have directory : disk.at? (place ++ [name]) = some .directory :=
        (clear.begin (show [name] <+: name :: rest by simp)).directories (by simp [next]) _ List.prefix_rfl
      exact ih
        (fun other among => ordinary other (List.mem_cons_of_mem _ among))
        (fun above begins => by simpa using clear (name :: above) (by simpa using begins))
        directory (by simpa using absent)

/-! ### Making directories -/

/-- A disk comes from another by making the directories that are missing on a way, and no other
change. -/
structure Made (disk : Disk) (place : Place) (names : List String) (made : Disk) : Prop where
  here : made.here = disk.here
  directories : ∀ above, above <+: names → made.at? (place ++ above) = some .directory
  others : ∀ other, (∀ above, above <+: names → other ≠ place ++ above) →
    made.at? other = disk.at? other

/-- Nothing has to be made where the directories are there. -/
theorem Made.refl {names : List String}
    (way : ∀ above, above <+: names → disk.at? (place ++ above) = some .directory) :
    Made disk place names disk :=
  ⟨rfl, way, fun _ _ => rfl⟩

theorem Made.snoc {names : List String} {made : Disk} (first : Made disk place names made)
    (last : String) :
    Made disk place (names ++ [last]) (made.put (place ++ (names ++ [last])) .directory) := by
  have below : place ++ (names ++ [last]) ≠ [] := by simp
  refine ⟨first.here, fun above begins => ?_, fun other apart => ?_⟩
  · by_cases whole : above = names ++ [last]
    · rw [whole, at?_put _ _ below]
    · have before : above <+: names := (List.prefix_concat_iff.mp begins).resolve_left whole
      rw [at?_put_of_ne _ _ fun same => whole (List.append_cancel_left same)]
      exact first.directories above before
  · rw [at?_put_of_ne _ _ (apart _ List.prefix_rfl)]
    exact first.others other fun above begins =>
      apart above (begins.trans (List.prefix_append _ _))

/-- Making one directory: the names above it are followed, and then there has to be nothing. -/
theorem makeDirectory_snoc {names : List String} {last : String}
    (ordinary : ∀ name ∈ names ++ [last], OrdinaryName name)
    (fits : size (names ++ [last]) ≤ longestPath) :
    disk.makeDirectory place (names ++ [last]) =
      (disk.follow place names).bind fun parent =>
        match disk.step parent last with
        | .ok _ => .error .present
        | .error .absent => .ok (disk.put (parent ++ [last]) .directory)
        | .error fault => .error fault := by
  have clear : ((names ++ [last]).any fun step => step.toList.any (·.toNat = 0)) = false := by
    rw [List.any_eq_false]
    intro name among
    simpa [Store.holdsNul] using (ordinary name among).clear
  rw [makeDirectory]
  simp only [List.getLast?_concat, clear, Nat.not_lt.mpr fits, List.dropLast_concat]
  rfl

/-- The last directory of a way is made if those above it are there and it is not. -/
theorem makeDirectory_new {names : List String} {last : String}
    (ordinary : ∀ name ∈ names ++ [last], OrdinaryName name)
    (fits : size (names ++ [last]) ≤ longestPath)
    (way : ∀ above, above <+: names → disk.at? (place ++ above) = some .directory)
    (absent : disk.at? (place ++ (names ++ [last])) = none) :
    disk.makeDirectory place (names ++ [last]) =
      .ok (disk.put (place ++ (names ++ [last])) .directory) := by
  obtain ⟨ordinaryNames, ordinaryLast⟩ := List.forall_mem_append.mp ordinary
  rw [← List.append_assoc] at absent ⊢
  rw [makeDirectory_snoc ordinary fits, follow_directories ordinaryNames way, Except.bind,
    step_ordinary (ordinaryLast last List.mem_cons_self) (way names List.prefix_rfl), absent]
  rfl

/-- A directory that is there already is not made again. -/
theorem makeDirectory_present {names : List String} {last : String}
    (ordinary : ∀ name ∈ names ++ [last], OrdinaryName name)
    (fits : size (names ++ [last]) ≤ longestPath)
    (way : ∀ above, above <+: names ++ [last] → disk.at? (place ++ above) = some .directory) :
    disk.makeDirectory place (names ++ [last]) = .error .present := by
  obtain ⟨ordinaryNames, ordinaryLast⟩ := List.forall_mem_append.mp ordinary
  have wayNames : ∀ above, above <+: names → disk.at? (place ++ above) = some .directory :=
    fun above begins => way above (begins.trans (List.prefix_append _ _))
  have there := way _ List.prefix_rfl
  rw [← List.append_assoc] at there
  rw [makeDirectory_snoc ordinary fits, follow_directories ordinaryNames wayNames, Except.bind,
    step_ordinary (ordinaryLast last List.mem_cons_self) (wayNames names List.prefix_rfl), there]
  rfl

/-- No directory is made where those above it are missing. -/
theorem makeDirectory_absent {names : List String} {last : String}
    (ordinary : ∀ name ∈ names ++ [last], OrdinaryName name)
    (fits : size (names ++ [last]) ≤ longestPath) (here : disk.at? place = some .directory)
    (clear : Clear disk place names) (absent : disk.at? (place ++ names) = none) :
    disk.makeDirectory place (names ++ [last]) = .error .absent := by
  rw [makeDirectory_snoc ordinary fits,
    follow_absent (List.forall_mem_append.mp ordinary).1 clear here absent]
  rfl

/-- Where nothing is in the way, the missing directories are made. -/
theorem makeDirectories_clear {back : List String} (ordinary : ∀ name ∈ back, OrdinaryName name)
    (fits : size back.reverse ≤ longestPath) (here : disk.at? place = some .directory)
    (clear : Clear disk place back.reverse) :
    ∃ made, disk.makeDirectories place back = .ok made ∧ Made disk place back.reverse made := by
  induction back with
  | nil =>
    refine ⟨disk, rfl, .refl fun above begins => ?_⟩
    rw [List.prefix_nil.mp begins, List.append_nil, here]
  | cons last back ih =>
    have ordinaryAll : ∀ name ∈ back.reverse ++ [last], OrdinaryName name := by
      simpa [or_comm] using ordinary
    rw [List.reverse_cons] at fits clear ⊢
    have above : back.reverse <+: back.reverse ++ [last] := List.prefix_append _ _
    rw [makeDirectories, List.reverse_cons]
    by_cases there : disk.at? (place ++ (back.reverse ++ [last])) = none
    · cases parent : disk.at? (place ++ back.reverse) with
      | some entry =>
        -- Only the last directory is missing.
        have way := (clear.begin above).directories (by simp [parent])
        rw [makeDirectory_new ordinaryAll fits way there]
        exact ⟨_, rfl, (Made.refl way).snoc last⟩
      | none =>
        -- Those above are made first, which leaves the place of the last one empty.
        obtain ⟨made, makes, first⟩ := ih
          (fun name among => ordinary name (List.mem_cons_of_mem _ among))
          (Nat.le_trans (size_mono above) fits) (clear.begin above)
        have still : made.at? (place ++ (back.reverse ++ [last])) = none := by
          rw [first.others, there]
          intro shorter begins same
          rw [← List.append_cancel_left same] at begins
          exact absurd begins.length_le (by simp)
        rw [makeDirectory_absent ordinaryAll fits here (clear.begin above) parent]
        simp only [makes, Except.bind, makeDirectory_new ordinaryAll fits first.directories still]
        exact ⟨_, rfl, first.snoc last⟩
    · have way := clear.directories there
      rw [makeDirectory_present ordinaryAll fits way]
      simp only [leadsToDirectory_of_way ordinaryAll way, if_true]
      exact ⟨disk, rfl, .refl way⟩

/-! ### Where paths start from -/

theorem makeDirectory_here {made : Disk} {steps : List String}
    (makes : disk.makeDirectory place steps = .ok made) : made.here = disk.here := by
  simp only [makeDirectory, bind, Except.bind, throw, throwThe, MonadExceptOf.throw] at makes
  repeat' split at makes
  all_goals cases makes
  rfl

/-- Directories may be made, but relative paths go on starting from the same place. -/
theorem makeDirectories_here {made : Disk} {back : List String}
    (makes : disk.makeDirectories place back = .ok made) : made.here = disk.here := by
  have settled {steps : List String} {fault : Fault} {disk made : Disk}
      (settles : (if disk.leadsToDirectory place steps then .ok disk else .error fault) =
        Except.ok made) : made.here = disk.here := by
    split at settles
    · cases settles
      rfl
    · cases settles
  induction back generalizing made with
  | nil =>
    cases makes
    rfl
  | cons last back ih =>
    rw [makeDirectories] at makes
    dsimp only at makes
    split at makes
    · next first =>
      cases makes
      exact makeDirectory_here first
    · cases above : disk.makeDirectories place back with
      | error fault =>
        rw [above] at makes
        cases makes
      | ok between =>
        rw [above, Except.bind] at makes
        rw [← ih above]
        split at makes
        · next second =>
          cases makes
          exact makeDirectory_here second
        · exact settled makes
    · exact settled makes

end GroupReplay.Disk
