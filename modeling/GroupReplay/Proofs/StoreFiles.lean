import GroupReplay.Proofs.StoreAddresses

/-!
The file in which a store is kept.  From an empty directory on, exactly those paths of ordinary names
open the file that they spell that are read as themselves and short enough.  Then the directories above
it are made, the store starts empty, and whatever is done with it is there when it is opened again; two
such paths never open one file.  Other paths do: one with an escape opens the file of the path without.

Only visits of one path are followed.  What happens to a store while others are opened is left aside,
since a database keeps files beside its own, and another store may stand under the name of one of them.
-/

namespace GroupReplay.Disk

open Store (Tables)

variable {disk opened : Disk} {path : String} {tables : Tables}

/-! ### Disks that a store can be opened on -/

/-- The directory that relative paths start from is reached by its own path. -/
structure Grounded (disk : Disk) : Prop where
  ordinary : ∀ name ∈ disk.here, OrdinaryName name
  way : ∀ above, above <+: disk.here → disk.at? above = some .directory

/-- The directory that relative paths start from is empty. -/
structure Vacant (disk : Disk) : Prop extends Grounded disk where
  empty : ∀ name further, disk.at? (disk.here ++ name :: further) = none

/-- A path's directories are there or can be made, and its file holds a store's tables, which are empty
if there is no file yet. -/
structure Ready (disk : Disk) (path : String) (tables : Tables) : Prop extends Grounded disk where
  clear : Clear disk disk.here (names path).dropLast
  file : (disk.at? (disk.spelled path) = none ∧ tables = {}) ∨
    disk.at? (disk.spelled path) = some (.tables tables)

/-- A disk comes from another by opening a path's file: its directories are there, it holds the tables,
and nothing else has changed. -/
structure Opened (disk : Disk) (path : String) (tables : Tables) (opened : Disk) : Prop where
  here : opened.here = disk.here
  directories : ∀ above, above <+: (names path).dropLast →
    opened.at? (disk.here ++ above) = some .directory
  file : opened.at? (disk.spelled path) = some (.tables tables)
  others : ∀ place, (∀ above, above <+: names path → place ≠ disk.here ++ above) →
    opened.at? place = disk.at? place

/-- The names above a path's file, and that of the file. -/
theorem names_eq (path : String) :
    names path = (names path).dropLast ++ [(names path).getLast (names_ne_nil path)] :=
  (List.dropLast_append_getLast _).symm

theorem spelled_ne_nil (disk : Disk) (path : String) : disk.spelled path ≠ [] :=
  List.append_ne_nil_of_right_ne_nil _ (names_ne_nil path)

/-- A path's file is none of the directories above it. -/
theorem spelled_ne_above {above : List String} (begins : above <+: (names path).dropLast) :
    disk.spelled path ≠ disk.here ++ above := by
  intro same
  rw [← List.append_cancel_left same, names_eq] at begins
  exact absurd begins.length_le (by simp)

/-- On an empty directory every path finds its way. -/
theorem Vacant.ready (vacant : Vacant disk) (path : String) : Ready disk path {} := by
  refine { vacant.toGrounded with clear := fun above _ => ?_, file := .inl ⟨?_, rfl⟩ }
  · cases above with
    | nil => exact .inl (by simpa using vacant.way disk.here List.prefix_rfl)
    | cons name rest =>
      exact .inr fun further => by simpa using vacant.empty name (rest ++ further)
  · obtain ⟨name, further, named⟩ := List.exists_cons_of_ne_nil (names_ne_nil path)
    rw [spelled, named]
    exact vacant.empty name further

/-- Changes below the directory that relative paths start from leave the way to it. -/
theorem Grounded.below (grounded : Grounded disk) (here : opened.here = disk.here)
    (directory : opened.at? disk.here = some .directory)
    (others : ∀ place, (∀ more, place ≠ disk.here ++ more) → opened.at? place = disk.at? place) :
    Grounded opened := by
  refine ⟨here ▸ grounded.ordinary, fun above begins => ?_⟩
  rw [here] at begins
  by_cases whole : above = disk.here
  · rw [whole, directory]
  · rw [others above, grounded.way above begins]
    rintro more rfl
    exact whole (begins.eq_of_length_le (by simp))

/-- All the way to a directory below the one that relative paths start from there are directories. -/
theorem Grounded.way_below (grounded : Grounded disk) {names : List String}
    (directories : ∀ above, above <+: names → disk.at? (disk.here ++ above) = some .directory) :
    ∀ above, above <+: disk.here ++ names → disk.at? above = some .directory := by
  intro above begins
  obtain shorter | ⟨more, rfl⟩ :=
    List.prefix_or_prefix_of_prefix begins (List.prefix_append disk.here names)
  · exact grounded.way above shorter
  · exact directories more ((List.prefix_append_right_inj _).mp begins)

/-- What has been opened is ready to be opened again. -/
theorem Opened.ready (opens : Opened disk path tables opened) (grounded : Grounded disk) :
    Ready opened path tables := by
  have directory : opened.at? disk.here = some .directory := by
    simpa using opens.directories [] List.nil_prefix
  have spells : opened.spelled path = disk.spelled path := by rw [spelled, opens.here, spelled]
  refine { grounded.below opens.here directory fun place apart =>
             opens.others place fun above _ => apart above with
           clear := fun above begins => .inl ?_, file := .inr (spells ▸ opens.file) }
  rw [opens.here]
  exact opens.directories above begins

/-- Tables that are kept take the place of those that were there. -/
theorem Opened.keep (opens : Opened disk path tables opened) (written : Tables) :
    Opened disk path written (opened.keep (.onDisk (disk.spelled path)) written) where
  here := opens.here
  directories above begins := by
    rw [Disk.keep, at?_put_of_ne _ _ (spelled_ne_above begins).symm]
    exact opens.directories above begins
  file := at?_put _ _ (spelled_ne_nil disk path)
  others place apart := by
    have other : place ≠ disk.spelled path := apart _ List.prefix_rfl
    rw [Disk.keep, at?_put_of_ne _ _ other]
    exact opens.others place apart

/-! ### Opening -/

/-- A store that is opened: the directories are made first, and then the database that the path's address
names. -/
theorem openStore_ok_iff (ordinary : Ordinary path) {keeping : Keeping} :
    disk.openStore path = (.ok (keeping, tables), opened) ↔
      ∃ made, disk.makeDirectories disk.here (names path).dropLast.reverse = .ok made ∧
        made.openDatabase (databaseText path) = (some (keeping, tables), opened) := by
  rw [openStore, if_neg ordinary.kept, makeParent, ordinary.start, steps_of_ordinary ordinary.names]
  cases disk.makeDirectories disk.here (names path).dropLast.reverse with
  | error fault => simp
  | ok made =>
    simp only [Except.ok.injEq, exists_eq_left']
    obtain ⟨found | found, left⟩ := made.openDatabase (databaseText path)
    · simp
    · simp

/-- Wherever a path that is read as itself opens a store, it is in the file that the path spells. -/
theorem keeping_of_literal (ordinary : Ordinary path) (literal : Literal path) {keeping : Keeping}
    (opens : disk.openStore path = (.ok (keeping, tables), opened)) :
    keeping = .onDisk (disk.spelled path) := by
  obtain ⟨made, makes, file⟩ := (openStore_ok_iff ordinary).mp opens
  rw [openDatabase_literal ordinary literal] at file
  obtain ⟨_, unnamed⟩ | ⟨same, _⟩ := keeping_of_openFile file
  · exact absurd unnamed ordinary.named
  · rw [same, ordinary.lexical, spelled, makeDirectories_here makes, spelled]

section File

variable (grounded : Grounded disk) (ordinary : Ordinary path) (short : Short (disk.spelled path))
  (directories : ∀ above, above <+: (names path).dropLast →
    disk.at? (disk.here ++ above) = some .directory)

include grounded ordinary directories

theorem leads_above : disk.leadsToDirectory [] (disk.spelled path).dropLast = true := by
  have above : (disk.spelled path).dropLast = disk.here ++ (names path).dropLast :=
    List.dropLast_append_of_ne_nil (names_ne_nil path)
  have ordinaryAll : ∀ name ∈ disk.here ++ (names path).dropLast, OrdinaryName name :=
    List.forall_mem_append.mpr
      ⟨grounded.ordinary, fun name among => ordinary.names name (List.dropLast_subset _ among)⟩
  rw [above]
  exact leadsToDirectory_of_way ordinaryAll (grounded.way_below directories)

include short

/-- In a directory that is there a file is made, with no records in it. -/
theorem openFile_absent (absent : disk.at? (disk.spelled path) = none) :
    disk.openFile path =
      (some (.onDisk (disk.spelled path), {}), disk.put (disk.spelled path) (.tables {})) := by
  rw [openFile, if_neg ordinary.named]
  simp only [ordinary.lexical, leads_above grounded ordinary directories, short, absent,
    not_true_eq_false, Bool.not_true, Bool.false_eq_true, if_false]

/-- A file with a store in it is opened as it is. -/
theorem openFile_present (present : disk.at? (disk.spelled path) = some (.tables tables)) :
    disk.openFile path = (some (.onDisk (disk.spelled path), tables), disk) := by
  rw [openFile, if_neg ordinary.named]
  simp only [ordinary.lexical, leads_above grounded ordinary directories, short, present,
    not_true_eq_false, Bool.not_true, Bool.false_eq_true, if_false]

end File

/-- When the directories have been made, the file is all that is left to be put in place. -/
theorem Made.then_file {made : Disk} (isMade : Made disk disk.here (names path).dropLast made)
    (here : opened.here = made.here) (file : opened.at? (disk.spelled path) = some (.tables tables))
    (others : ∀ place, place ≠ disk.spelled path → opened.at? place = made.at? place) :
    Opened disk path tables opened where
  here := here.trans isMade.here
  directories above begins := by
    rw [others _ (spelled_ne_above begins).symm]
    exact isMade.directories above begins
  file := file
  others place apart := by
    rw [others place (apart _ List.prefix_rfl)]
    exact isMade.others place fun above begins =>
      apart above (begins.trans (List.dropLast_prefix _))

/-- A store is opened where a path finds its way, if it is read as itself and short enough. -/
theorem openStore_ready (ready : Ready disk path tables) (ordinary : Ordinary path)
    (literal : Literal path) (short : Short (disk.spelled path)) :
    ∃ opened, disk.openStore path = (.ok (.onDisk (disk.spelled path), tables), opened) ∧
      Opened disk path tables opened := by
  have ordinaryAbove : ∀ name ∈ (names path).dropLast.reverse, OrdinaryName name := by
    intro name among
    exact ordinary.names name (List.dropLast_subset _ (List.mem_reverse.mp among))
  have fits : size (names path).dropLast ≤ longestPath := calc
    size (names path).dropLast ≤ size (names path) := size_mono (List.dropLast_prefix _)
    _ ≤ size (disk.spelled path) := by
      rw [spelled, size_append]
      exact Nat.le_add_left _ _
    _ ≤ longestDatabasePath := short.2
    _ ≤ longestPath := by decide
  have here : disk.at? disk.here = some .directory := ready.way _ List.prefix_rfl
  have back : (names path).dropLast.reverse.reverse = (names path).dropLast := List.reverse_reverse _
  obtain ⟨made, makes, isMade⟩ := makeDirectories_clear ordinaryAbove (back.symm ▸ fits) here
    (back.symm ▸ ready.clear)
  rw [back] at isMade
  have directory : made.at? disk.here = some .directory := by
    simpa using isMade.directories [] List.nil_prefix
  have spells : made.spelled path = disk.spelled path := by rw [spelled, isMade.here, spelled]
  have file : made.at? (disk.spelled path) = disk.at? (disk.spelled path) :=
    isMade.others _ fun above begins => spelled_ne_above begins
  have grounded : Grounded made := ready.below isMade.here directory fun place apart =>
    isMade.others place fun above _ => apart above
  have directories : ∀ above, above <+: (names path).dropLast →
      made.at? (made.here ++ above) = some .directory := isMade.here ▸ isMade.directories
  have opens {tables : Tables} {opened : Disk}
      (opens : made.openFile path = (some (.onDisk (made.spelled path), tables), opened)) :
      disk.openStore path = (.ok (.onDisk (disk.spelled path), tables), opened) :=
    (openStore_ok_iff ordinary).mpr
      ⟨made, makes, by rw [openDatabase_literal ordinary literal, opens, spells]⟩
  obtain ⟨absent, rfl⟩ | held := ready.file
  · rw [← file, ← spells] at absent
    refine ⟨_, opens (openFile_absent grounded ordinary (spells ▸ short) directories absent), ?_⟩
    rw [spells]
    exact isMade.then_file rfl (at?_put _ _ (spelled_ne_nil disk path))
      fun place other => at?_put_of_ne _ _ other
  · have present := file.trans held
    rw [← spells] at present
    refine ⟨made, opens (openFile_present grounded ordinary (spells ▸ short) directories present), ?_⟩
    exact isMade.then_file rfl (file.trans held) fun _ _ => rfl

/-- From an empty directory on, a path opens the file that it spells exactly if it is read as itself and
short enough. -/
theorem opens_spelled_iff (vacant : Vacant disk) (ordinary : Ordinary path) :
    (∃ tables opened, disk.openStore path = (.ok (.onDisk (disk.spelled path), tables), opened)) ↔
      Literal path ∧ Short (disk.spelled path) := by
  constructor
  · rintro ⟨tables, opened, opens⟩
    obtain ⟨made, makes, file⟩ := (openStore_ok_iff ordinary).mp opens
    have spells : made.spelled path = disk.spelled path := by
      rw [spelled, makeDirectories_here makes, spelled]
    rw [← spells] at file ⊢
    have literal := literal_of_opened ordinary file
    rw [openDatabase_literal ordinary literal] at file
    exact ⟨literal, (place_of_openFile file).2⟩
  · rintro ⟨literal, short⟩
    obtain ⟨opened, opens, _⟩ := openStore_ready (vacant.ready path) ordinary literal short
    exact ⟨{}, opened, opens⟩

/-! ### Visits -/

/-- Opens the store at a path, changes its tables and keeps them. -/
def visit (path : String) (disk : Disk) (change : Tables → Tables) : Disk :=
  match disk.openStore path with
  | (.ok (keeping, tables), opened) => opened.keep keeping (change tables)
  | (.error _, left) => left

/-- A visit leaves the tables changed, and ready for the next one. -/
theorem Ready.visit (ready : Ready disk path tables) (ordinary : Ordinary path)
    (literal : Literal path) (short : Short (disk.spelled path)) (change : Tables → Tables) :
    (visit path disk change).here = disk.here ∧
      Ready (Disk.visit path disk change) path (change tables) := by
  obtain ⟨opened, opens, isOpened⟩ := openStore_ready ready ordinary literal short
  have kept := isOpened.keep (change tables)
  rw [Disk.visit, opens]
  exact ⟨kept.here, kept.ready ready.toGrounded⟩

/-- After any visits the tables are what the changes come to, one after the other. -/
theorem Ready.visits (ordinary : Ordinary path) (literal : Literal path)
    (changes : List (Tables → Tables)) :
    ∀ {disk : Disk} {tables : Tables}, Ready disk path tables → Short (disk.spelled path) →
      (changes.foldl (Disk.visit path) disk).here = disk.here ∧
        Ready (changes.foldl (Disk.visit path) disk) path
          (changes.foldl (fun tables change => change tables) tables) := by
  induction changes with
  | nil => exact fun ready _ => ⟨rfl, ready⟩
  | cons change rest ih =>
    intro disk tables ready short
    obtain ⟨here, next⟩ := ready.visit ordinary literal short change
    have spells : (Disk.visit path disk change).spelled path = disk.spelled path := by
      rw [spelled, here, spelled]
    obtain ⟨hereLast, last⟩ := ih next (spells ▸ short)
    exact ⟨hereLast.trans here, last⟩

/-- A store that is opened again after visits holds what these made of it. -/
theorem reopens_changed (vacant : Vacant disk) (ordinary : Ordinary path) (literal : Literal path)
    (short : Short (disk.spelled path)) (changes : List (Tables → Tables)) :
    ∃ reopened, (changes.foldl (visit path) disk).openStore path =
      (.ok (.onDisk (disk.spelled path),
        changes.foldl (fun tables change => change tables) {}), reopened) := by
  obtain ⟨here, ready⟩ := Ready.visits ordinary literal changes (vacant.ready path) short
  have spells : (changes.foldl (visit path) disk).spelled path = disk.spelled path := by
    rw [spelled, here, spelled]
  obtain ⟨reopened, opens, _⟩ := openStore_ready ready ordinary literal (spells ▸ short)
  exact ⟨reopened, spells ▸ opens⟩

/-! ### Paths and files -/

/-- Two paths that are read as themselves open two files, whatever else is on the disk. -/
theorem keepings_differ {otherDisk otherOpened : Disk} {other : String} {otherTables : Tables}
    {keeping otherKeeping : Keeping} (here : disk.here = otherDisk.here)
    (ordinary : Ordinary path) (literal : Literal path)
    (ordinaryOther : Ordinary other) (literalOther : Literal other) (different : path ≠ other)
    (opens : disk.openStore path = (.ok (keeping, tables), opened))
    (opensOther : otherDisk.openStore other = (.ok (otherKeeping, otherTables), otherOpened)) :
    keeping ≠ otherKeeping := by
  intro same
  rw [keeping_of_literal ordinary literal opens,
    keeping_of_literal ordinaryOther literalOther opensOther, spelled, spelled, here] at same
  exact different (names_injective (List.append_cancel_left (Keeping.onDisk.inj same)))

/-- From an empty directory on, a path of ordinary names opens the file that it spells exactly if it
is read as itself and short enough.  Then the directories above the file are made, an empty store is
put in it, and nothing else is changed; opening it again, after any number of visits, shows what the
visits made of the store.  Two paths that are read as themselves never open the same database,
whatever is on the disk. -/
theorem paths_name_files (vacant : Vacant disk) (ordinary : Ordinary path) :
    ((∃ tables opened,
        disk.openStore path = (.ok (.onDisk (disk.spelled path), tables), opened)) ↔
      Literal path ∧ Short (disk.spelled path)) ∧
      (Literal path → Short (disk.spelled path) →
        (∃ opened, disk.openStore path = (.ok (.onDisk (disk.spelled path), {}), opened) ∧
          Opened disk path {} opened) ∧
        ∀ changes : List (Tables → Tables),
          ∃ reopened, (changes.foldl (visit path) disk).openStore path =
            (.ok (.onDisk (disk.spelled path),
              changes.foldl (fun tables change => change tables) {}), reopened)) ∧
      (Literal path → ∀ (left right : Disk) (other : String), left.here = right.here →
        Ordinary other → Literal other → path ≠ other →
          ∀ keeping tables opened otherKeeping otherTables otherOpened,
            left.openStore path = (.ok (keeping, tables), opened) →
              right.openStore other = (.ok (otherKeeping, otherTables), otherOpened) →
                keeping ≠ otherKeeping) := by
  refine ⟨opens_spelled_iff vacant ordinary, fun literal short => ⟨?_, ?_⟩, ?_⟩
  · exact openStore_ready (vacant.ready path) ordinary literal short
  · exact reopens_changed vacant ordinary literal short
  · intro literal left right other here ordinaryOther literalOther different
      keeping tables opened otherKeeping otherTables otherOpened opens opensOther
    exact keepings_differ here ordinary literal ordinaryOther literalOther different opens opensOther

theorem fresh_vacant : Vacant fresh where
  ordinary := by decide +kernel
  way above begins := by
    obtain rfl | rfl : above = [] ∨ above = ["work"] := by
      obtain rfl | ⟨rest, rfl, more⟩ := List.prefix_cons_iff.mp begins
      · exact .inl rfl
      · exact .inr (by rw [List.prefix_nil.mp more])
    · rfl
    · decide
  empty name further := by simp [at?, fresh]

theorem ordinary_nested : Ordinary "d/m.db" := ⟨by decide, by decide +kernel⟩

theorem literal_nested : Literal "d/m.db" := .of_plain (by decide) (by decide) (by decide +kernel)

theorem ordinary_simple : Ordinary "m.db" := ⟨by decide, by decide +kernel⟩

theorem literal_simple : Literal "m.db" := .of_plain (by decide) (by decide) (by decide +kernel)

/-- A store one step down: it starts empty, the directory is made, an account that was added is there
again, and the path of the file's name alone opens another. -/
theorem nested_path_names_file :
    (∃ opened, fresh.openStore "d/m.db" = (.ok (.onDisk ["work", "d", "m.db"], {}), opened) ∧
        opened.at? ["work", "d"] = some .directory) ∧
      (∃ reopened,
        ([fun tables => (tables.perform (.ensureAccount "k" "n")).2].foldl (visit "d/m.db")
          fresh).openStore "d/m.db" =
            (.ok (.onDisk ["work", "d", "m.db"], { accounts := [⟨"k", "n"⟩] }), reopened)) ∧
      ∀ keeping tables opened, fresh.openStore "m.db" = (.ok (keeping, tables), opened) →
        .onDisk ["work", "d", "m.db"] ≠ keeping := by
  have place : fresh.spelled "d/m.db" = ["work", "d", "m.db"] := by decide +kernel
  have short : Short (fresh.spelled "d/m.db") := by decide +kernel
  have added : ((({} : Tables).perform (.ensureAccount "k" "n")).2 : Tables) =
      { accounts := [⟨"k", "n"⟩] } := by decide +kernel
  obtain ⟨-, opens, apart⟩ := paths_name_files fresh_vacant ordinary_nested
  obtain ⟨⟨opened, first, isOpened⟩, reopens⟩ := opens literal_nested short
  obtain ⟨reopened, again⟩ := reopens
    [fun tables => (tables.perform (.ensureAccount "k" "n")).2]
  refine ⟨⟨opened, place ▸ first, isOpened.directories ["d"] (by decide +kernel)⟩, ⟨reopened, ?_⟩, ?_⟩
  · rw [again, place, ← added]
    rfl
  · intro keeping tables other opensOther
    rw [← place]
    exact apart literal_nested fresh fresh "m.db" rfl ordinary_simple literal_simple (by decide)
      _ _ _ _ _ _ first opensOther

/-- The text of a path with an escape in it is not the name of the file that it opens.  That a path is
read as itself is needed for a store to be in the file that the path spells, and for two paths to open
two. -/
theorem escaped_path_opens_other :
    (¬ ∀ disk path, Vacant disk → Ordinary path → Short (disk.spelled path) →
      ∃ tables opened, disk.openStore path = (.ok (.onDisk (disk.spelled path), tables), opened)) ∧
      ¬ ∀ (disk otherDisk : Disk) (path other : String), disk.here = otherDisk.here →
        Ordinary path → Ordinary other → path ≠ other →
          ∀ keeping tables opened otherKeeping otherTables otherOpened,
            disk.openStore path = (.ok (keeping, tables), opened) →
              otherDisk.openStore other = (.ok (otherKeeping, otherTables), otherOpened) →
                keeping ≠ otherKeeping := by
  have escaped : Ordinary "%41" := ⟨by decide, by decide +kernel⟩
  have plain : Ordinary "A" := ⟨by decide, by decide +kernel⟩
  have opensEscaped : (fresh.openStore "%41").1 = .ok (.onDisk ["work", "A"], {}) := by
    decide +kernel
  have opensPlain : (fresh.openStore "A").1 = .ok (.onDisk ["work", "A"], {}) := by decide +kernel
  have elsewhere : Keeping.onDisk (fresh.spelled "%41") ≠ .onDisk ["work", "A"] := by
    decide +kernel
  constructor
  · intro every
    obtain ⟨tables, opened, opens⟩ := every fresh "%41" fresh_vacant escaped (by decide +kernel)
    rw [opens] at opensEscaped
    exact elsewhere (congrArg Prod.fst (Except.ok.inj opensEscaped))
  · intro every
    exact every fresh fresh "%41" "A" rfl escaped plain (by decide) _ _ _ _ _ _
      (Prod.ext opensEscaped rfl) (Prod.ext opensPlain rfl) rfl

end GroupReplay.Disk
