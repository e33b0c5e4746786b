import GroupReplay.Settings.Basic
import Mathlib.Data.List.Nodup

/-!
What putting values into a table leaves of them.  The two settings are kept in places of their own,
each a field of a section.  A source supplies texts for places: if it has one for a place, that is
found there once the source was put, and otherwise what stood there before, whatever else the source
holds.  So sections are not replaced but merged, and a later source wins place by place.
-/

namespace GroupReplay.Settings

namespace Value

/-! ### Entries that are put -/

/-- What a value comes to where another stood or none did: a table is merged into it, anything else
takes its place. -/
def placed (value : Value) (old : Option Value) : Value :=
  match value with
  | table _ entries => merge entries (old.getD (table none []))
  | other => other

/-- The value of the first entry of a name in any case. -/
def supplied? (name : String) (source : List (String × Value)) : Option Value :=
  (source.find? (·.1.toLower = name)).map (·.2)

/-- A table, of whatever origin. -/
def IsTable (value : Value) : Prop := ∃ origin entries, value = table origin entries

theorem entries_alter (name : String) (default : Value) (f : Value → Value) (value : Value) :
    (alter name default f value).entries =
      if value.entries.any (·.1 = name) then
        value.entries.map fun entry => if entry.1 = name then (name, f entry.2) else entry
      else value.entries ++ [(name, f default)] := by
  cases value <;> rfl

theorem isTable_alter (name : String) (default : Value) (f : Value → Value) (value : Value) :
    (alter name default f value).IsTable := by
  cases value <;> exact ⟨_, _, rfl⟩

/-- The entry that is altered is there afterwards, and the others are what they were. -/
theorem get?_alter (name other : String) (default : Value) (f : Value → Value) (value : Value) :
    (alter name default f value).get? other =
      if name = other then some (f ((value.get? name).getD default)) else value.get? other := by
  have kept : (fun entry : String × Value => decide (entry.1 = other)) ∘
      (fun entry => if entry.1 = name then (name, f entry.2) else entry) =
        fun entry => decide (entry.1 = other) := by
    funext entry
    by_cases same : entry.1 = name <;> simp [same]
  rw [get?, get?, get?, entries_alter]
  split
  · next present =>
    rw [List.find?_map, kept]
    cases found : value.entries.find? (·.1 = other) with
    | none =>
      have different : name ≠ other := by
        rintro rfl
        obtain ⟨entry, member, named⟩ := List.any_eq_true.mp present
        exact List.find?_eq_none.mp found entry member named
      simp [different]
    | some entry =>
      have named : entry.1 = other := by simpa using List.find?_some found
      by_cases same : name = other
      · subst same
        simp [found, named]
      · simp [same, named, Ne.symm same]
  · next absent =>
    rw [List.find?_append]
    by_cases same : name = other
    · subst same
      have missing : value.entries.find? (·.1 = name) = none :=
        List.find?_eq_none.mpr fun entry member named =>
          absent (List.any_eq_true.mpr ⟨entry, member, named⟩)
      simp [missing]
    · simp [same]

theorem isTable_put (name : String) (value target : Value) : (put name value target).IsTable := by
  cases value <;> rw [put] <;> exact isTable_alter _ _ _ _

/-- A value that is put is placed under its name in lower case; the other entries are what they
were. -/
theorem get?_put (name other : String) (value target : Value) :
    (put name value target).get? other =
      if name.toLower = other then some (placed value (target.get? other)) else target.get? other := by
  by_cases same : name.toLower = other
  · subst same
    cases value <;> simp [put, get?_alter, placed]
  · cases value <;> simp [put, get?_alter, same]

theorem isTable_merge (source : List (String × Value)) {target : Value} (table : target.IsTable) :
    (merge source target).IsTable := by
  induction source generalizing target with
  | nil => exact table
  | cons entry rest ih => exact ih (isTable_put entry.1 entry.2 target)

theorem supplied?_of_not_mem {name : String} {source : List (String × Value)}
    (other : name ∉ source.map (·.1.toLower)) : supplied? name source = none := by
  rw [supplied?, Option.map_eq_none_iff, List.find?_eq_none]
  intro entry member named
  exact other (List.mem_map.mpr ⟨entry, member, by simpa using named⟩)

/-- Where the names of a source are different in any case, each of its values is placed once. -/
theorem get?_merge (name : String) {source : List (String × Value)}
    (distinct : (source.map (·.1.toLower)).Nodup) (target : Value) :
    (merge source target).get? name =
      match supplied? name source with
      | some value => some (placed value (target.get? name))
      | none => target.get? name := by
  induction source generalizing target with
  | nil => rfl
  | cons entry rest ih =>
    obtain ⟨fresh, distinct⟩ := List.nodup_cons.mp distinct
    rw [merge, ih distinct, get?_put]
    by_cases same : entry.1.toLower = name
    · subst same
      rw [if_pos rfl, supplied?_of_not_mem fresh]
      simp [supplied?]
    · simp [supplied?, same]

/-- A source whose keys are names is merged. -/
theorem putSource_eq_merge {source : List (String × Value)}
    (names : ∀ entry ∈ source, KeyPath.ofText? entry.1 = some ⟨entry.1, []⟩) (root : Value) :
    putSource source root = merge source root := by
  induction source generalizing root with
  | nil => rfl
  | cons entry rest ih =>
    obtain ⟨name, others⟩ := List.forall_mem_cons.mp names
    have put : putKey entry.1 entry.2 root = put entry.1 entry.2 root := by
      rw [putKey, name]
      rfl
    rw [merge, ← put]
    exact ih others _

/-- The text of a value, which only a scalar has. -/
def text? : Value → Option String
  | .scalar _ inner => inner.text?
  | _ => none

end Value

/-! ### The places of settings -/

/-- Where a setting is kept. -/
inductive Place where
  | address
  | storePath
  deriving DecidableEq

namespace Place

/-- The section that a setting belongs to. -/
def sectionName : Place → String
  | address => "protocol"
  | storePath => "storage"

/-- The field of the section. -/
def fieldName : Place → String
  | address => "address"
  | storePath => "path"

/-- The variable of the environment that sets it. -/
def variableName : Place → String
  | address => "REPLAY__PROTOCOL__ADDRESS"
  | storePath => "REPLAY__STORAGE__PATH"

/-- The setting if nothing sets it. -/
def default : Place → String
  | address => ({} : Settings).address
  | storePath => ({} : Settings).storePath

theorem sectionName_injective : Function.Injective sectionName := by
  intro place other same
  cases place <;> cases other <;> first | rfl | exact absurd same (by decide)

theorem variableName_injective : Function.Injective variableName := by
  intro place other same
  cases place <;> cases other <;> first | rfl | exact absurd same (by decide)

end Place

namespace Value

/-- What a value holds in a place. -/
def at? (place : Place) (root : Value) : Option Value :=
  (root.get? place.sectionName).bind (·.get? place.fieldName)

/-- A section that can be read: a table, with a text in the field, if it is there. -/
structure Readable (place : Place) (found : Value) : Prop where
  isTable : found.IsTable
  texts : ∀ value ∈ found.get? place.fieldName, ∃ text, value.text? = some text

/-- A value whose sections can be read. -/
def Fit (root : Value) : Prop :=
  ∀ place, ∀ found ∈ root.get? place.sectionName, Readable place found

end Value

/-- The setting in a place is its text, or the default. -/
theorem readSection_fit {root : Value} (fit : root.Fit) (place : Place) (expected : String) :
    readSection root place.sectionName expected place.fieldName place.default =
      .ok (((root.at? place).bind Value.text?).getD place.default) := by
  unfold readSection Value.at?
  cases found : root.get? place.sectionName with
  | none => rfl
  | some inner =>
    obtain ⟨⟨origin, entries, rfl⟩, texts⟩ := fit place inner found
    dsimp only
    rw [Option.bind_some]
    cases held : (Value.table origin entries).get? place.fieldName with
    | none => rfl
    | some value =>
      obtain ⟨text, is⟩ := texts value held
      rw [Option.bind_some, is]
      cases value with
      | scalar origin scalar =>
        have is : scalar.text? = some text := is
        simp only [readText, is, Option.getD_some]
      | list => cases is
      | table => cases is

/-- The settings in a value whose sections can be read. -/
theorem ofValue_fit {root : Value} (fit : root.Fit) :
    let found (place : Place) := ((root.at? place).bind Value.text?).getD place.default
    ofValue root = .ok { address := found .address, storePath := found .storePath } := by
  intro found
  have address : readSection root "protocol" "struct ProtocolConfig" "address" _ = _ :=
    readSection_fit fit .address _
  have storePath : readSection root "storage" "struct StorageConfig" "path" _ = _ :=
    readSection_fit fit .storePath _
  change (readSection root "protocol" "struct ProtocolConfig" "address" Place.address.default >>=
    fun address => readSection root "storage" "struct StorageConfig" "path"
      Place.storePath.default >>= fun storePath => pure ({ address, storePath } : Settings)) = _
  rw [address, storePath]
  rfl

/-- A source supplies texts for places if, put into what can be read, it leaves what can be read, with
these texts where there are any and otherwise with what was there. -/
def Supplies (source : List (String × Value)) (given : Place → Option String) : Prop :=
  ∀ root : Value, root.Fit → (Value.putSource source root).Fit ∧
    ∀ place, ((Value.putSource source root).at? place).bind Value.text? =
      (given place).or ((root.at? place).bind Value.text?)

theorem supplies_nothing : Supplies [] fun _ => none := fun _ fit => ⟨fit, fun _ => rfl⟩

/-- Of two sources the later one wins, place by place. -/
theorem Supplies.append {first second : List (String × Value)} {given more : Place → Option String}
    (supplies : Supplies first given) (suppliesToo : Supplies second more) :
    Supplies (first ++ second) fun place => (more place).or (given place) := by
  intro root fit
  obtain ⟨fit, texts⟩ := supplies root fit
  obtain ⟨fit, textsToo⟩ := suppliesToo _ fit
  rw [Value.putSource, List.foldl_append]
  refine ⟨fit, fun place => ?_⟩
  rw [Option.or_assoc, ← texts place]
  exact textsToo place

/-! ### Tables as sources -/

/-- A table whose keys are names, different in any case, and whose sections, if it has them, hold
texts in the fields of settings, if they have these. -/
structure Suited (source : List (String × Value)) : Prop where
  names : ∀ entry ∈ source, KeyPath.ofText? entry.1 = some ⟨entry.1, []⟩
  distinct : (source.map (·.1.toLower)).Nodup
  sections : ∀ place : Place, ∀ found ∈ Value.supplied? place.sectionName source,
    found.IsTable ∧ (found.entries.map (·.1.toLower)).Nodup ∧
      ∀ value ∈ Value.supplied? place.fieldName found.entries, ∃ text, value.text? = some text

/-- The text that a source holds for a place. -/
def supply? (source : List (String × Value)) (place : Place) : Option String :=
  ((Value.supplied? place.sectionName source).bind fun found =>
    Value.supplied? place.fieldName found.entries).bind Value.text?

/-- A value with a text is placed as it is. -/
theorem Value.placed_text {value : Value} {text : String} (is : value.text? = some text)
    (old : Option Value) : value.placed old = value := by
  cases value with
  | table => cases is
  | _ => rfl

/-- A section that can be read, or none, and a table that is merged into it. -/
theorem merged_readable {place : Place} {entries : List (String × Value)} {old : Option Value}
    (readable : ∀ found ∈ old, Value.Readable place found)
    (distinct : (entries.map (·.1.toLower)).Nodup)
    (texts : ∀ value ∈ Value.supplied? place.fieldName entries, ∃ text, value.text? = some text) :
    Value.Readable place (Value.merge entries (old.getD (.table none []))) ∧
      ((Value.merge entries (old.getD (.table none []))).get? place.fieldName).bind Value.text? =
        ((Value.supplied? place.fieldName entries).bind Value.text?).or
          ((old.bind (·.get? place.fieldName)).bind Value.text?) := by
  have before : Value.Readable place (old.getD (.table none [])) := by
    cases old with
    | none => exact ⟨⟨_, _, rfl⟩, nofun⟩
    | some found => exact readable found rfl
  have same : (old.getD (.table none [])).get? place.fieldName =
      old.bind (·.get? place.fieldName) := by
    cases old <;> rfl
  have placed := Value.get?_merge place.fieldName distinct (old.getD (.table none []))
  cases supplied : Value.supplied? place.fieldName entries with
  | none =>
    rw [supplied] at placed
    refine ⟨⟨Value.isTable_merge _ before.isTable, ?_⟩, ?_⟩
    · rw [placed]
      exact before.texts
    · rw [placed, same]
      rfl
  | some value =>
    obtain ⟨text, is⟩ := texts value supplied
    rw [supplied] at placed
    simp only [Value.placed_text is] at placed
    refine ⟨⟨Value.isTable_merge _ before.isTable, ?_⟩, ?_⟩
    · rw [placed]
      rintro _ ⟨⟩
      exact ⟨text, is⟩
    · rw [placed, Option.bind_some, is]
      rfl

/-- A suited table supplies the texts that it holds. -/
theorem Suited.supplies {source : List (String × Value)} (suited : Suited source) :
    Supplies source (supply? source) := by
  intro root fit
  rw [Value.putSource_eq_merge suited.names]
  have placed (place : Place) := Value.get?_merge place.sectionName suited.distinct root
  have each (place : Place) :
      (∀ found ∈ (Value.merge source root).get? place.sectionName, Value.Readable place found) ∧
        ((Value.merge source root).at? place).bind Value.text? =
          (supply? source place).or ((root.at? place).bind Value.text?) := by
    rw [Value.at?, placed place, supply?]
    cases supplied : Value.supplied? place.sectionName source with
    | none => exact ⟨fit place, rfl⟩
    | some found =>
      obtain ⟨⟨origin, entries, rfl⟩, distinct, texts⟩ := suited.sections place found supplied
      obtain ⟨readable, held⟩ := merged_readable (fit place) distinct texts
      refine ⟨?_, held⟩
      rintro _ ⟨⟩
      exact readable
  exact ⟨fun place => (each place).1, fun place => (each place).2⟩

/-! ### The environment -/

/-- The key that the variable of a place holds the value of. -/
def Place.keyName : Place → String
  | .address => "protocol.address"
  | .storePath => "storage.path"

theorem keyOf?_variableName (place : Place) :
    Source.keyOf? place.variableName = some place.keyName := by
  cases place <;> decide +kernel

theorem ofText?_keyName (place : Place) :
    KeyPath.ofText? place.keyName = some ⟨place.sectionName, [.child place.fieldName]⟩ := by
  cases place <;> decide +kernel

theorem toLower_fieldName (place : Place) : place.fieldName.toLower = place.fieldName := by
  cases place <;> decide +kernel

/-- A variable is never without a text. -/
theorem text_ofVariable (text : String) : ∃ value, (Source.ofVariable text).text? = some value := by
  unfold Source.ofVariable
  split
  · exact ⟨_, rfl⟩
  · split
    · exact ⟨_, rfl⟩
    · split
      · exact ⟨_, rfl⟩
      · split <;> exact ⟨_, rfl⟩

/-- A text that is put under the key of a place is what is found there. -/
theorem supplies_key {scalar : Scalar} {text : String} (is : scalar.text? = some text)
    (origin : Option String) (place : Place) :
    Supplies [(place.keyName, .scalar origin scalar)] fun other =>
      if other = place then some text else none := by
  intro root fit
  have put (name : String) : (Value.putSource [(place.keyName, .scalar origin scalar)] root).get? name =
      if place.sectionName = name then
        some (Value.put place.fieldName (.scalar origin scalar)
          ((root.get? place.sectionName).getD .missing).asTable)
      else root.get? name := by
    have keyed : Value.putSource [(place.keyName, .scalar origin scalar)] root =
        Value.alter place.sectionName .missing
          (KeyPath.assign (.scalar origin scalar) [.child place.fieldName]) root := by
      change Value.putKey place.keyName (.scalar origin scalar) root = _
      rw [Value.putKey, ofText?_keyName]
      rfl
    rw [keyed, Value.get?_alter]
    rfl
  have field (target : Value) : (Value.put place.fieldName (.scalar origin scalar) target).get?
      place.fieldName = some (.scalar origin scalar) := by
    rw [Value.get?_put, if_pos (toLower_fieldName place)]
    rfl
  refine ⟨fun other found holds => ?_, fun other => ?_⟩
  · rw [put] at holds
    split at holds
    · next same =>
      obtain rfl := Place.sectionName_injective same
      cases holds
      refine ⟨Value.isTable_put _ _ _, fun value held => ?_⟩
      rw [field] at held
      cases held
      exact ⟨text, is⟩
    · exact fit other found holds
  · rw [Value.at?, put]
    dsimp only
    by_cases same : other = place
    · subst same
      rw [if_pos rfl, if_pos rfl, Option.bind_some, field, Option.bind_some]
      exact is
    · rw [if_neg fun sections => same (Place.sectionName_injective sections.symm), if_neg same]
      rfl

/-- The text that a variable of the environment holds for a place. -/
def environmentText? (environment : List (String × String)) (place : Place) : Option String :=
  (environment.find? (·.1 = place.variableName)).bind fun entry => (Source.ofVariable entry.2).text?

theorem environmentText?_of_not_mem {environment : List (String × String)} {place : Place}
    (unset : place.variableName ∉ environment.map (·.1)) :
    environmentText? environment place = none := by
  have missing : environment.find? (·.1 = place.variableName) = none :=
    List.find?_eq_none.mpr fun entry member named =>
      unset (List.mem_map.mpr ⟨entry, member, of_decide_eq_true named⟩)
  rw [environmentText?, missing]
  rfl

theorem ofEnvironment_cons (name text : String) (rest : List (String × String)) :
    Source.ofEnvironment ((name, text) :: rest) =
      ((Source.keyOf? name).map
        (·, Value.scalar (some "the environment") (Source.ofVariable text))).toList ++
        Source.ofEnvironment rest := by
  rw [Source.ofEnvironment, List.filterMap_cons]
  dsimp only
  cases Source.keyOf? name <;> rfl

/-- An environment that has no variable twice, and holds settings in no others than those of the
places, supplies the texts of these. -/
theorem environment_supplies {environment : List (String × String)}
    (once : (environment.map (·.1)).Nodup)
    (known : ∀ name ∈ environment.map (·.1), (Source.keyOf? name).isSome →
      ∃ place : Place, name = place.variableName) :
    Supplies (Source.ofEnvironment environment) (environmentText? environment) := by
  induction environment with
  | nil => exact supplies_nothing
  | cons entry rest ih =>
    obtain ⟨name, text⟩ := entry
    obtain ⟨fresh, once⟩ := List.nodup_cons.mp once
    obtain ⟨here, others⟩ := List.forall_mem_cons.mp known
    have later := ih once others
    rw [ofEnvironment_cons]
    by_cases holds : ∃ place : Place, name = place.variableName
    · obtain ⟨place, rfl⟩ := holds
      obtain ⟨value, is⟩ := text_ofVariable text
      have given : environmentText? ((place.variableName, text) :: rest) = fun other =>
          (environmentText? rest other).or (if other = place then some value else none) := by
        funext other
        by_cases same : other = place
        · subst same
          rw [environmentText?_of_not_mem fresh, environmentText?]
          simp [is]
        · have different : place.variableName ≠ other.variableName := fun is =>
            same (Place.variableName_injective is).symm
          simp [environmentText?, same, different]
      rw [given, keyOf?_variableName]
      exact (supplies_key is (some "the environment") place).append later
    · have unkeyed : Source.keyOf? name = none := by
        cases key : Source.keyOf? name with
        | none => rfl
        | some => exact absurd (here (by rw [key]; rfl)) holds
      have given : environmentText? ((name, text) :: rest) = environmentText? rest := by
        funext other
        have different : name ≠ other.variableName := fun named => holds ⟨other, named⟩
        simp [environmentText?, different]
      rw [given, unkeyed]
      exact later

end GroupReplay.Settings
