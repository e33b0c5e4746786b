import GroupReplay.Proofs.SettingsDocuments

/-!
Settings found in layers.  Each setting is the text in the highest layer that has one: the variable of
its own, the file that the environment names, the file that the caller names, the file of the fixed
name; without one it is its default.  Where one setting is found says nothing about the other, and the
files may hold anything besides under keys that have names, except what is unreadable, for which a
file is refused as a whole.
-/

namespace GroupReplay.Settings

open Yaml (Node)

/-! ### Files -/

/-- The document in a file. -/
def document? (read : String → Option String) (name : String) : Option Node :=
  (read name).bind fun text => Node.ofText? (withoutMark text)

/-- The text that a file holds for a place. -/
def fileText? (read : String → Option String) (name : String) (place : Place) : Option String :=
  (document? read name).bind (documentText? · place)

/-- Under a name that a file is looked for by, no other is found in its stead. -/
def Alone (read : String → Option String) (name : String) : Prop :=
  ∀ other ∈ candidates name, other ≠ name → read other = none

/-- A file is looked for by its own name first. -/
theorem exists_candidates (name : String) : ∃ others, candidates name = name :: others := by
  unfold candidates
  dsimp only
  split <;> exact ⟨_, rfl⟩

/-- The other names that a file is looked for by. -/
theorem alone_of_extended {read : String → Option String} {name : String}
    (others : read (stem name ++ ".yaml") = none ∧ read (stem name ++ ".yml") = none) :
    Alone read name := by
  intro other member different
  unfold candidates at member
  dsimp only at member
  split at member
  · exact absurd (List.mem_singleton.mp member) different
  · simp only [List.mem_cons, List.not_mem_nil, or_false] at member
    obtain rfl | rfl | rfl := member
    · exact absurd rfl different
    · exact others.1
    · exact others.2

section Reading

variable {read : String → Option String} {name : String}

theorem ofFile_missing (missing : ∀ candidate ∈ candidates name, read candidate = none)
    (required : Bool) :
    ofFile read name required = if required then .error (.fileNotFound name) else .ok [] := by
  have nothing : (candidates name).findSome? (fun candidate => (read candidate).map (candidate, ·)) =
      none :=
    List.findSome?_eq_none_iff.mpr fun candidate member => by rw [missing candidate member]; rfl
  simp only [ofFile, nothing]

theorem ofFile_document {root : Node} (holds : document? read name = some root) (required : Bool) :
    ofFile read name required =
      match Source.ofNode? (originOf name) root with
      | some (.table _ entries) => .ok entries
      | _ => .error .illFormed := by
  obtain ⟨text, there, parsed⟩ := Option.bind_eq_some_iff.mp holds
  obtain ⟨others, looked⟩ := exists_candidates name
  have found : (candidates name).findSome? (fun candidate => (read candidate).map (candidate, ·)) =
      some (name, text) := by
    rw [looked, List.findSome?_cons, there]
    rfl
  simp only [ofFile, found, Source.ofFile?, parsed, Option.bind_some]
  cases Source.ofNode? (originOf name) root with
  | none => rfl
  | some value => cases value <;> rfl

/-- A file with something unreadable in it is refused. -/
theorem ofFile_unreadable {root : Node} (holds : document? read name = some root)
    (unreadable : Unreadable root) (required : Bool) :
    ofFile read name required = .error .illFormed := by
  rw [ofFile_document holds, (ofNode?_eq_none_iff _ root).mpr (refused_iff.mpr (.inl unreadable))]

/-- A file that is not there supplies nothing. -/
theorem absent_supplies (alone : Alone read name) (absent : read name = none) :
    ofFile read name false = .ok [] ∧ Supplies [] (fileText? read name) := by
  have missing : ∀ candidate ∈ candidates name, read candidate = none := by
    intro candidate member
    by_cases same : candidate = name
    · rw [same, absent]
    · exact alone candidate member same
  have nothing : fileText? read name = fun _ => none := by
    funext place
    rw [fileText?, document?, absent]
    rfl
  rw [ofFile_missing missing, nothing]
  exact ⟨rfl, supplies_nothing⟩

/-- An orderly file, in which nothing is unreadable, supplies the texts that it holds. -/
theorem orderly_supplies {root : Node} (holds : document? read name = some root)
    (orderly : Orderly root) (readable : ¬ Unreadable root) (required : Bool) :
    ∃ source, ofFile read name required = .ok source ∧ Supplies source (fileText? read name) := by
  cases value : Source.ofNode? (originOf name) root with
  | none =>
    have refused := refused_iff.mp ((ofNode?_eq_none_iff _ root).mp value)
    exact absurd refused (not_or.mpr ⟨readable, orderly.keyed⟩)
  | some found =>
    obtain ⟨entries, source, rfl, rfl, taken⟩ := exists_entries orderly.isMapping value
    have given : fileText? read name = supply? source := by
      rw [orderly.supply taken]
      funext place
      rw [fileText?, holds]
      rfl
    rw [ofFile_document holds, value, given]
    exact ⟨source, rfl, (orderly.suited taken).supplies⟩

end Reading

/-! ### Layers -/

/-- The files that have to be there: that of the caller and that of the environment. -/
def requiredFiles (path : Option String) (environment : List (String × String)) : List String :=
  path.toList ++ (wanted? environment).toList

/-- The files that are read. -/
def files (path : Option String) (environment : List (String × String)) : List String :=
  defaultFile :: requiredFiles path environment

/-- The text in the highest layer that has one for a place, or else the default. -/
def layered (read : String → Option String) (path : Option String)
    (environment : List (String × String)) (place : Place) : String :=
  let set? := (environmentText? environment place).or <|
    ((wanted? environment).bind (fileText? read · place)).or <|
      (path.bind (fileText? read · place)).or <| fileText? read defaultFile place
  set?.getD place.default

/-- Layers as settings are given in: files that are orderly if they are there, none of which another
is found in the stead of, and an environment with no variable twice, in which no names begin like
those of settings except these. -/
structure Layers (read : String → Option String) (path : Option String)
    (environment : List (String × String)) : Prop where
  alone : ∀ name ∈ files path environment, Alone read name
  orderly : ∀ name ∈ files path environment, (read name).isSome →
    ∃ root ∈ document? read name, Orderly root
  once : (environment.map (·.1)).Nodup
  known : ∀ name ∈ environment.map (·.1), name.toLower.startsWith Source.variablePrefix →
    ∃ place : Place, name = place.variableName

section Loading

variable {read : String → Option String} {path : Option String}
  {environment : List (String × String)}

theorem environment_layer (layers : Layers read path environment) :
    Supplies (Source.ofEnvironment environment) (environmentText? environment) := by
  refine environment_supplies layers.once fun name member holds => layers.known name member ?_
  unfold Source.keyOf? at holds
  dsimp only at holds
  split at holds
  · next begins => exact String.startsWith_string_iff.mpr (List.isPrefixOf_iff_prefix.mp begins)
  · cases holds

/-- A file that may be named, and has to be there if it is. -/
theorem named_layer {named : Option String} (each : ∀ name ∈ named,
      ∃ source, ofFile read name true = .ok source ∧ Supplies source (fileText? read name)) :
    ∃ source, named.elim (pure []) (fun name => ofFile read name true) = .ok source ∧
      Supplies source fun place => named.bind (fileText? read · place) := by
  cases named with
  | none => exact ⟨[], rfl, supplies_nothing⟩
  | some name => exact each name rfl

/-- The settings that layers come to. -/
theorem load_supplied {optional named wanted : List (String × Value)}
    {first second third fourth : Place → Option String}
    (isOptional : ofFile read defaultFile false = .ok optional)
    (isNamed : path.elim (pure []) (fun name => ofFile read name true) = .ok named)
    (isWanted : (wanted? environment).elim (pure []) (fun name => ofFile read name true) =
      .ok wanted)
    (supplies₁ : Supplies optional first) (supplies₂ : Supplies named second)
    (supplies₃ : Supplies wanted third)
    (supplies₄ : Supplies (Source.ofEnvironment environment) fourth) :
    let set (place : Place) := ((fourth place).or <| (third place).or <| (second place).or <|
      first place).getD place.default
    load read path environment = .ok { address := set .address, storePath := set .storePath } := by
  intro set
  have empty : (Value.table none []).Fit := fun place found holds => by cases holds
  obtain ⟨fit, texts⟩ := ((supplies₁.append supplies₂).append supplies₃).append supplies₄ _ empty
  have found := ofValue_fit fit
  have nothing (place : Place) : ((Value.table none []).at? place).bind Value.text? = none := rfl
  simp only [texts, nothing, Option.or_none] at found
  have root : [optional, named, wanted, Source.ofEnvironment environment].foldl
      (fun root source => Value.putSource source root) (.table none []) =
        Value.putSource (((optional ++ named) ++ wanted) ++ Source.ofEnvironment environment)
          (.table none []) := by
    simp [Value.putSource, List.foldl_append]
  unfold load
  rw [isOptional, isNamed, isWanted]
  change ofValue _ = _
  rw [root]
  exact found

/-- Layers in which nothing is unreadable, and whose required files are there. -/
theorem load_readable (layers : Layers read path environment)
    (there : ∀ name ∈ requiredFiles path environment, (read name).isSome)
    (readable : ∀ name ∈ files path environment, ∀ root ∈ document? read name, ¬ Unreadable root) :
    load read path environment =
      .ok { address := layered read path environment .address
            storePath := layered read path environment .storePath } := by
  have present {name : String} (among : name ∈ files path environment) (is : (read name).isSome)
      (required : Bool) : ∃ source, ofFile read name required = .ok source ∧
        Supplies source (fileText? read name) := by
    obtain ⟨root, holds, orderly⟩ := layers.orderly name among is
    exact orderly_supplies holds orderly (readable name among root holds) required
  have required {name : String} (among : name ∈ requiredFiles path environment) :=
    present (List.mem_cons_of_mem _ among) (there name among) true
  have fixed : defaultFile ∈ files path environment := List.mem_cons_self
  obtain ⟨optional, isOptional, supplies₁⟩ : ∃ source, ofFile read defaultFile false = .ok source ∧
      Supplies source (fileText? read defaultFile) := by
    cases text : read defaultFile with
    | none => exact ⟨[], absent_supplies (layers.alone _ fixed) text⟩
    | some _ => exact present fixed (by rw [text]; rfl) false
  obtain ⟨named, isNamed, supplies₂⟩ := named_layer fun name is =>
    required (List.mem_append_left _ (Option.mem_toList.mpr is))
  obtain ⟨wanted, isWanted, supplies₃⟩ := named_layer fun name is =>
    required (List.mem_append_right _ (Option.mem_toList.mpr is))
  exact load_supplied isOptional isNamed isWanted supplies₁ supplies₂ supplies₃
    (environment_layer layers)

/-- Nothing is found if the file of the fixed name is refused. -/
theorem load_optional_refused {e : Error} (refused : ofFile read defaultFile false = .error e) :
    load read path environment = .error e := by
  unfold load
  rw [refused]
  rfl

/-- Nothing is found if a file that has to be there is refused. -/
theorem load_required_refused {name : String} (among : name ∈ requiredFiles path environment)
    {e : Error} (refused : ofFile read name true = .error e) :
    ∃ e, load read path environment = .error e := by
  unfold load
  cases ofFile read defaultFile false with
  | error e => exact ⟨e, rfl⟩
  | ok optional =>
    obtain isNamed | isWanted := List.mem_append.mp among
    · rw [Option.mem_toList.mp isNamed, Option.elim_some, refused]
      exact ⟨e, rfl⟩
    · rw [Option.mem_toList.mp isWanted, Option.elim_some, refused]
      cases path.elim (pure []) fun name => ofFile read name true with
      | error e => exact ⟨e, rfl⟩
      | ok named => exact ⟨e, rfl⟩

/-- Nothing is found if something is unreadable in a file that is read. -/
theorem load_unreadable {name : String} {root : Node} (among : name ∈ files path environment)
    (holds : document? read name = some root) (unreadable : Unreadable root) :
    ∃ e, load read path environment = .error e := by
  have refused := ofFile_unreadable holds unreadable
  obtain rfl | among := List.mem_cons.mp among
  · exact ⟨_, load_optional_refused (refused false)⟩
  · exact load_required_refused among (refused true)

end Loading

/-- Settings are found in layers.  If every file that has to be there is, and nothing that is there is
unreadable, each of the two settings is the text in the highest layer that sets it, or else its
default, whatever the other setting and the rest of the files are.  If a file has something unreadable
in it, no settings are found, and neither are they, whatever else there is, if the file of the caller
or that of the environment is missing. -/
theorem settings_layered :
    (∀ read path environment, Layers read path environment →
      (∀ name ∈ requiredFiles path environment, (read name).isSome) →
        (∀ name ∈ files path environment, ∀ root ∈ document? read name, ¬ Unreadable root) →
          load read path environment =
            .ok { address := layered read path environment .address
                  storePath := layered read path environment .storePath }) ∧
      (∀ read path environment, ∀ name ∈ files path environment, ∀ root ∈ document? read name,
        Unreadable root → ∃ e, load read path environment = .error e) ∧
      ∀ read path environment, ∀ name ∈ requiredFiles path environment,
        (∀ candidate ∈ candidates name, read candidate = none) →
          ∃ e, load read path environment = .error e := by
  refine ⟨fun read path environment => load_readable,
    fun read path environment name among root holds => load_unreadable among holds, ?_⟩
  intro read path environment name among missing
  exact load_required_refused among (ofFile_missing missing true)

/-- Three files, of which the last two are those of the caller and of the environment. -/
def threeFiles : String → Option String
  | "config.yaml" => some "storage: {path: b}"
  | "named.yaml" => some "Storage: {PATH: 007}"
  | "wanted.yaml" => some "protocol: {address: 1e3}"
  | _ => none

/-- An environment that names one of the files and sets the address. -/
def namingEnvironment : List (String × String) :=
  [("REPLAY_CONFIG", "wanted.yaml"), ("REPLAY__PROTOCOL__ADDRESS", "TRUE")]

/-- The files with the environment are layers. -/
theorem threeFiles_layers : Layers threeFiles (some "named.yaml") namingEnvironment := by
  have others : ∀ name ∈ files (some "named.yaml") namingEnvironment,
      threeFiles (stem name ++ ".yaml") = none ∧ threeFiles (stem name ++ ".yml") = none := by
    decide +kernel
  refine ⟨fun name member => alone_of_extended (others name member), by decide +kernel, by decide,
    fun name member begins => ?_⟩
  have either : name = "REPLAY_CONFIG" ∨ name = "REPLAY__PROTOCOL__ADDRESS" := by
    simpa [namingEnvironment] using member
  obtain rfl | rfl := either
  · exact absurd begins (by decide +kernel)
  · exact ⟨.address, rfl⟩

/-- A file that holds an infinity as the address. -/
def infiniteFile : String → Option String
  | "a.yaml" => some "protocol:\n  address: -.inf\n"
  | _ => none

theorem infiniteFile_layers : Layers infiniteFile (some "a.yaml") [] := by
  have others : ∀ name ∈ files (some "a.yaml") [],
      infiniteFile (stem name ++ ".yaml") = none ∧ infiniteFile (stem name ++ ".yml") = none := by
    decide +kernel
  exact ⟨fun name member => alone_of_extended (others name member), by decide +kernel,
    List.nodup_nil, nofun⟩

theorem infiniteFile_unreadable : ∃ root ∈ document? infiniteFile "a.yaml", Unreadable root := by
  decide +kernel

/-- The address comes from the environment, over the file that this names, and the path from the file
of the caller, over that of the fixed name, both written anew.  Nothing is found if a file holds an
infinity, or if the file of the caller is missing. -/
theorem threeFiles_layered :
    load threeFiles (some "named.yaml") namingEnvironment =
        .ok { address := "true", storePath := "7" } ∧
      (∃ e, load infiniteFile (some "a.yaml") [] = .error e) ∧
      ∃ e, load (fun _ => none) (some "named.yaml") namingEnvironment = .error e := by
  obtain ⟨found, refused, missing⟩ := settings_layered
  refine ⟨?_, ?_, ?_⟩
  · have there : ∀ name ∈ requiredFiles (some "named.yaml") namingEnvironment,
        (threeFiles name).isSome := by decide +kernel
    have readable : ∀ name ∈ files (some "named.yaml") namingEnvironment,
        ∀ root ∈ document? threeFiles name, ¬ Unreadable root := by decide +kernel
    have address : layered threeFiles (some "named.yaml") namingEnvironment .address = "true" := by
      decide +kernel
    have storePath : layered threeFiles (some "named.yaml") namingEnvironment .storePath = "7" := by
      decide +kernel
    rw [found _ _ _ threeFiles_layers there readable, address, storePath]
  · obtain ⟨root, holds, unreadable⟩ := infiniteFile_unreadable
    exact refused _ _ _ "a.yaml" (by decide) root holds unreadable
  · exact missing _ _ _ "named.yaml" (List.mem_append_left _ (by decide)) fun _ _ => rfl

/-- Unreadable values have to be excluded: with an infinity for an address no settings are found. -/
theorem infinity_refused :
    ¬ ∀ read path environment, Layers read path environment →
      (∀ name ∈ requiredFiles path environment, (read name).isSome) →
        load read path environment =
          .ok { address := layered read path environment .address
                storePath := layered read path environment .storePath } := by
  intro every
  obtain ⟨root, holds, unreadable⟩ := infiniteFile_unreadable
  obtain ⟨e, refused⟩ : ∃ e, load infiniteFile (some "a.yaml") [] = .error e :=
    load_unreadable (by decide) holds unreadable
  rw [every infiniteFile (some "a.yaml") [] infiniteFile_layers (by decide +kernel)] at refused
  cases refused

end GroupReplay.Settings
