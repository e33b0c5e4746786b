import GroupReplay.Proofs.SettingsValues
import Mathlib.Data.List.TakeWhile

/-!
Documents that settings are written in.  An orderly one has plain names as keys and scalars where
settings are, whatever else it holds under keys that have names, and its table supplies the texts of
these scalars.  It has a table unless something in it is a number that is spelled as no double is,
which goes for infinities and for what is no number, as YAML spells them.
-/

namespace GroupReplay.Settings

open Yaml (Node)

/-! ### Documents as they are written -/

/-- The names of the entries of a mapping. -/
def keys : Node → List String
  | .map entries => entries.filterMap fun entry => Source.name? entry.1
  | _ => []

/-- The value of the first entry of a name in any case. -/
def valueOf? (name : String) : Node → Option Node
  | .map entries =>
    (entries.find? fun entry => (Source.name? entry.1).map String.toLower = some name).map (·.2)
  | _ => none

/-- The text of a scalar: numbers are written anew, and null has none. -/
def nodeText? : Node → Option String
  | .bool value => some (toString value)
  | .int value => some (toString value)
  | .real text => (Number.Double.ofText? text).map (·.render)
  | .text text => some text
  | _ => none

/-- The text that a document holds for a place. -/
def documentText? (root : Node) (place : Place) : Option String :=
  ((valueOf? place.sectionName root).bind (valueOf? place.fieldName)).bind nodeText?

/-- A mapping. -/
def IsMapping : Node → Prop
  | .map _ => True
  | _ => False

instance : (node : Node) → Decidable (IsMapping node)
  | .map _ => isTrue trivial
  | .null | .unusable | .bool _ | .int _ | .real _ | .text _ | .list _ => isFalse id

/-- A scalar that is not null and that its tag, if it has one, admits. -/
def IsScalar : Node → Prop
  | .bool _ | .int _ | .real _ | .text _ => True
  | _ => False

instance : (node : Node) → Decidable (IsScalar node)
  | .bool _ | .int _ | .real _ | .text _ => isTrue trivial
  | .null | .unusable | .list _ | .map _ => isFalse id

/-- A plain name: not empty, and of the characters of names alone. -/
def IsName (name : String) : Prop :=
  name ≠ "" ∧ ∀ char ∈ name.toList, KeyPath.isNameChar char = true

instance (name : String) : Decidable (IsName name) :=
  decidable_of_iff (name ≠ "" ∧ name.toList.all KeyPath.isNameChar = true) (by simp [IsName])

/-- No name twice, in any case. -/
def Distinct (names : List String) : Prop := (names.map String.toLower).Nodup

instance (names : List String) : Decidable (Distinct names) :=
  inferInstanceAs (Decidable (List.Nodup _))

/-- A node stands in another, at any depth. -/
inductive Within : Node → Node → Prop where
  | here (node : Node) : Within node node
  | item {node item : Node} {items : List Node} (member : item ∈ items) (within : Within node item) :
      Within node (.list items)
  | value {node key value : Node} {entries : List (Node × Node)} (member : (key, value) ∈ entries)
      (within : Within node value) : Within node (.map entries)

/-- Something of a kind stands in a document. -/
def Somewhere (kind : Node → Bool) (root : Node) : Prop := ∃ part, Within part root ∧ kind part

/-- A number that is spelled as no double is. -/
def isNoDouble : Node → Bool
  | .real text => (Number.Double.ofText? text).isNone
  | _ => false

/-- A mapping with a key that has no name. -/
def lacksName : Node → Bool
  | .map entries => entries.any fun entry => (Source.name? entry.1).isNone
  | _ => false

/-- Something in a document is a number that is spelled as no double is. -/
def Unreadable (root : Node) : Prop := Somewhere isNoDouble root

/-- Something in a document is a mapping with a key that has no name. -/
def Keyless (root : Node) : Prop := Somewhere lacksName root

theorem within_list_iff {part : Node} {items : List Node} :
    Within part (.list items) ↔ part = .list items ∨ ∃ item ∈ items, Within part item := by
  constructor
  · intro within
    cases within with
    | here => exact .inl rfl
    | item member within => exact .inr ⟨_, member, within⟩
  · rintro (rfl | ⟨item, member, within⟩)
    · exact .here _
    · exact .item member within

theorem within_map_iff {part : Node} {entries : List (Node × Node)} :
    Within part (.map entries) ↔ part = .map entries ∨ ∃ entry ∈ entries, Within part entry.2 := by
  constructor
  · intro within
    cases within with
    | here => exact .inl rfl
    | value member within => exact .inr ⟨_, member, within⟩
  · rintro (rfl | ⟨⟨key, value⟩, member, within⟩)
    · exact .here _
    · exact .value member within

mutual

/-- All that stands in a node, and the node itself. -/
def parts : Node → List Node
  | .list items => .list items :: partsOfItems items
  | .map entries => .map entries :: partsOfEntries entries
  | node => [node]

/-- All that stands in some items. -/
def partsOfItems : List Node → List Node
  | [] => []
  | item :: rest => parts item ++ partsOfItems rest

/-- All that stands in the values of some entries. -/
def partsOfEntries : List (Node × Node) → List Node
  | [] => []
  | (_, value) :: rest => parts value ++ partsOfEntries rest

end

mutual

theorem mem_parts_iff {part : Node} (root : Node) : part ∈ parts root ↔ Within part root := by
  cases root with
  | list items => rw [parts, List.mem_cons, mem_partsOfItems_iff items, within_list_iff]
  | map entries => rw [parts, List.mem_cons, mem_partsOfEntries_iff entries, within_map_iff]
  | _ =>
    simp only [parts, List.mem_singleton]
    constructor
    · rintro rfl
      exact .here _
    · intro within
      cases within
      rfl

theorem mem_partsOfItems_iff {part : Node} (items : List Node) :
    part ∈ partsOfItems items ↔ ∃ item ∈ items, Within part item := by
  cases items with
  | nil => simp [partsOfItems]
  | cons item rest =>
    rw [partsOfItems, List.mem_append, mem_parts_iff item, mem_partsOfItems_iff rest,
      List.exists_mem_cons_iff]

theorem mem_partsOfEntries_iff {part : Node} (entries : List (Node × Node)) :
    part ∈ partsOfEntries entries ↔ ∃ entry ∈ entries, Within part entry.2 := by
  cases entries with
  | nil => simp [partsOfEntries]
  | cons entry rest =>
    obtain ⟨key, value⟩ := entry
    rw [partsOfEntries, List.mem_append, mem_parts_iff value, mem_partsOfEntries_iff rest,
      List.exists_mem_cons_iff]

end

instance (kind : Node → Bool) (root : Node) : Decidable (Somewhere kind root) :=
  decidable_of_iff (∃ part ∈ parts root, kind part) (by simp only [Somewhere, mem_parts_iff])

instance (root : Node) : Decidable (Unreadable root) := inferInstanceAs (Decidable (Somewhere _ _))

instance (root : Node) : Decidable (Keyless root) := inferInstanceAs (Decidable (Somewhere _ _))

/-- A document as settings are written: a mapping with plain names as keys, none twice up to case,
whose sections, if it has them, are mappings with no key twice up to case, and hold scalars in the
fields of settings, if they have these.  What else there is may be anything, but no key in it is null,
a list or a mapping. -/
structure Orderly (root : Node) : Prop where
  isMapping : IsMapping root
  keyed : ¬ Keyless root
  named : ∀ name ∈ keys root, IsName name
  distinct : Distinct (keys root)
  sections : ∀ place : Place, ∀ inner ∈ valueOf? place.sectionName root,
    IsMapping inner ∧ Distinct (keys inner) ∧
      ∀ value ∈ valueOf? place.fieldName inner, IsScalar value

/-- What is to be asked of a document to see whether it is orderly. -/
theorem orderly_iff (root : Node) :
    Orderly root ↔
      IsMapping root ∧ ¬ Keyless root ∧ (∀ name ∈ keys root, IsName name) ∧ Distinct (keys root) ∧
        ∀ place ∈ [Place.address, .storePath], ∀ inner ∈ valueOf? place.sectionName root,
          IsMapping inner ∧ Distinct (keys inner) ∧
            ∀ value ∈ valueOf? place.fieldName inner, IsScalar value := by
  constructor
  · rintro ⟨isMapping, keyed, named, distinct, sections⟩
    exact ⟨isMapping, keyed, named, distinct, fun place _ => sections place⟩
  · rintro ⟨isMapping, keyed, named, distinct, sections⟩
    exact ⟨isMapping, keyed, named, distinct, fun place =>
      sections place (by cases place <;> decide)⟩

instance (root : Node) : Decidable (Orderly root) := decidable_of_iff' _ (orderly_iff root)

/-- A scalar that is taken for a number is one as it is spelled. -/
theorem isReal_of_ofScalar {plain : Bool} {tag : Option Yaml.Tag} {text spelled : String}
    (number : Node.ofScalar plain tag text = .real spelled) :
    spelled = text ∧ Node.isReal text = true := by
  unfold Node.ofScalar at number
  split at number
  · cases number
  · split at number
    · unfold Node.ofTagged at number
      repeat' split at number
      all_goals cases number
      next real => exact ⟨rfl, real⟩
    · unfold Node.ofPlain at number
      repeat' split at number
      all_goals cases number
      next real => exact ⟨rfl, real⟩

/-- Scalars that are taken for numbers are spelled as doubles are, except in twelve ways that YAML has
of its own, for infinities and for what is no number. -/
theorem unreadable_iff_special {plain : Bool} {tag : Option Yaml.Tag} {text spelled : String}
    (number : Node.ofScalar plain tag text = .real spelled) :
    Number.Double.ofText? spelled = none ↔ text ∈ Node.specialReals := by
  have none_special : ∀ special ∈ Node.specialReals, Number.Double.ofText? special = none := by
    decide +kernel
  obtain ⟨rfl, real⟩ := isReal_of_ofScalar number
  exact ⟨fun unreadable => by simpa [Node.isReal, unreadable] using real, none_special spelled⟩

/-! ### Values of nodes -/

/-- What keeps a node from having a value. -/
def isRefused (node : Node) : Bool := isNoDouble node || lacksName node

theorem refused_iff {root : Node} : Somewhere isRefused root ↔ Unreadable root ∨ Keyless root := by
  simp only [Unreadable, Keyless, Somewhere, isRefused, Bool.or_eq_true, and_or_left, exists_or]

theorem somewhere_list_iff {kind : Node → Bool} {items : List Node} :
    Somewhere kind (.list items) ↔
      kind (.list items) ∨ ∃ item ∈ items, Somewhere kind item := by
  constructor
  · rintro ⟨part, within, is⟩
    obtain rfl | ⟨item, member, within⟩ := within_list_iff.mp within
    · exact .inl is
    · exact .inr ⟨item, member, part, within, is⟩
  · rintro (is | ⟨item, member, part, within, is⟩)
    · exact ⟨_, .here _, is⟩
    · exact ⟨part, .item member within, is⟩

theorem somewhere_map_iff {kind : Node → Bool} {entries : List (Node × Node)} :
    Somewhere kind (.map entries) ↔
      kind (.map entries) ∨ ∃ entry ∈ entries, Somewhere kind entry.2 := by
  constructor
  · rintro ⟨part, within, is⟩
    obtain rfl | ⟨entry, member, within⟩ := within_map_iff.mp within
    · exact .inl is
    · exact .inr ⟨entry, member, part, within, is⟩
  · rintro (is | ⟨⟨key, value⟩, member, part, within, is⟩)
    · exact ⟨_, .here _, is⟩
    · exact ⟨part, .value member within, is⟩

mutual

/-- A node has a value unless something in it is unreadable or a key in it has no name. -/
theorem ofNode?_eq_none_iff (origin : String) (node : Node) :
    Source.ofNode? origin node = none ↔ Somewhere isRefused node := by
  cases node with
  | real text =>
    rw [Source.ofNode?, Source.real?, Option.map_eq_none_iff]
    constructor
    · intro none
      exact ⟨_, .here _, by simp [isRefused, isNoDouble, none]⟩
    · rintro ⟨_, within, is⟩
      cases within
      simpa [isRefused, isNoDouble, lacksName] using is
  | list items =>
    rw [Source.ofNode?, Option.map_eq_none_iff, ofItems?_eq_none_iff, somewhere_list_iff]
    simp [isRefused, isNoDouble, lacksName]
  | map entries =>
    rw [Source.ofNode?, Option.map_eq_none_iff, ofEntries?_eq_none_iff, somewhere_map_iff]
    simp [isRefused, isNoDouble, lacksName, and_or_left, exists_or]
  | _ =>
    constructor
    · intro none
      simp [Source.ofNode?] at none
    · rintro ⟨_, within, is⟩
      cases within
      cases is

theorem ofItems?_eq_none_iff (origin : String) (items : List Node) :
    Source.ofItems? origin items = none ↔ ∃ item ∈ items, Somewhere isRefused item := by
  cases items with
  | nil => simp [Source.ofItems?]
  | cons item rest =>
    rw [List.exists_mem_cons_iff, ← ofNode?_eq_none_iff origin item,
      ← ofItems?_eq_none_iff origin rest, Source.ofItems?]
    cases Source.ofNode? origin item <;> simp

theorem ofEntries?_eq_none_iff (origin : String) (entries : List (Node × Node)) :
    Source.ofEntries? origin entries = none ↔
      ∃ entry ∈ entries, Source.name? entry.1 = none ∨ Somewhere isRefused entry.2 := by
  cases entries with
  | nil => simp [Source.ofEntries?]
  | cons entry rest =>
    obtain ⟨key, value⟩ := entry
    rw [List.exists_mem_cons_iff, ← ofNode?_eq_none_iff origin value,
      ← ofEntries?_eq_none_iff origin rest, Source.ofEntries?]
    cases Source.name? key <;> cases Source.ofNode? origin value <;> simp

end

/-- A node has the text that its value has. -/
theorem text_ofNode? (origin : String) (node : Node) :
    (Source.ofNode? origin node).bind Value.text? = nodeText? node := by
  cases node with
  | real text =>
    rw [Source.ofNode?, Source.real?, nodeText?]
    cases Number.Double.ofText? text <;> rfl
  | list items =>
    rw [Source.ofNode?]
    cases Source.ofItems? origin items <;> rfl
  | map entries =>
    rw [Source.ofNode?]
    cases Source.ofEntries? origin entries <;> rfl
  | _ => rw [Source.ofNode?]; rfl

/-- The entries of a mapping keep their names. -/
theorem names_ofEntries? {origin : String} {entries : List (Node × Node)}
    {source : List (String × Value)} (read : Source.ofEntries? origin entries = some source) :
    source.map (·.1) = keys (.map entries) := by
  induction entries generalizing source with
  | nil => cases read; rfl
  | cons entry rest ih =>
    obtain ⟨key, node⟩ := entry
    simp only [Source.ofEntries?, Option.bind_eq_some_iff, Option.map_eq_some_iff] at read
    obtain ⟨name, named, value, _, others, readToo, rfl⟩ := read
    have first : keys (.map ((key, node) :: rest)) = name :: keys (.map rest) := by
      simp [keys, named]
    rw [first, List.map_cons, ih readToo]

/-- The entries of a mapping keep their places. -/
theorem supplied_ofEntries? {origin : String} {entries : List (Node × Node)}
    {source : List (String × Value)} (read : Source.ofEntries? origin entries = some source)
    (name : String) :
    Value.supplied? name source = (valueOf? name (.map entries)).bind (Source.ofNode? origin) := by
  induction entries generalizing source with
  | nil => cases read; rfl
  | cons entry rest ih =>
    obtain ⟨key, node⟩ := entry
    simp only [Source.ofEntries?, Option.bind_eq_some_iff, Option.map_eq_some_iff] at read
    obtain ⟨given, named, value, is, others, readToo, rfl⟩ := read
    by_cases same : given.toLower = name
    · simp [Value.supplied?, valueOf?, named, same, is]
    · have later := ih readToo
      simpa [Value.supplied?, valueOf?, named, same] using later

theorem ofText?_name {name : String} (isName : IsName name) :
    KeyPath.ofText? name = some ⟨name, []⟩ := by
  obtain ⟨nonempty, plain⟩ := isName
  have whole : name.toList.takeWhile KeyPath.isNameChar = name.toList :=
    List.takeWhile_eq_self_iff.mpr plain
  have nothing : name.toList.dropWhile KeyPath.isNameChar = [] :=
    List.dropWhile_eq_nil_iff.mpr plain
  have filled : name.toList.isEmpty = false := by
    rw [List.isEmpty_eq_false_iff]
    exact fun empty => nonempty (String.toList_eq_nil_iff.mp empty)
  simp only [KeyPath.ofText?, whole, nothing, filled]
  simp [KeyPath.steps?]

theorem lowered_names {origin : String} {entries : List (Node × Node)}
    {source : List (String × Value)} (read : Source.ofEntries? origin entries = some source) :
    source.map (·.1.toLower) = (keys (.map entries)).map String.toLower := by
  rw [← names_ofEntries? read, List.map_map]
  rfl

/-- A value that is there comes from a node that is there. -/
theorem node_of_supplied {origin : String} {entries : List (Node × Node)}
    {source : List (String × Value)} (read : Source.ofEntries? origin entries = some source)
    {name : String} {value : Value} (supplied : Value.supplied? name source = some value) :
    ∃ node, valueOf? name (.map entries) = some node ∧ Source.ofNode? origin node = some value := by
  rw [supplied_ofEntries? read, Option.bind_eq_some_iff] at supplied
  exact supplied

/-- Where a mapping has a value, its entries have. -/
theorem value_of_entry {origin : String} {entries : List (Node × Node)}
    {source : List (String × Value)} (read : Source.ofEntries? origin entries = some source)
    {name : String} {node : Node} (there : valueOf? name (.map entries) = some node) :
    ∃ value, Source.ofNode? origin node = some value := by
  obtain ⟨entry, found, rfl⟩ := Option.map_eq_some_iff.mp there
  cases is : Source.ofNode? origin entry.2 with
  | some value => exact ⟨value, rfl⟩
  | none =>
    have refused := (ofNode?_eq_none_iff origin entry.2).mp is
    have unread := (ofEntries?_eq_none_iff origin entries).mpr
      ⟨entry, List.mem_of_find?_eq_some found, .inr refused⟩
    rw [read] at unread
    cases unread

/-- A mapping whose value is a table. -/
theorem exists_entries {origin : String} {node : Node} {value : Value} (isMapping : IsMapping node)
    (read : Source.ofNode? origin node = some value) :
    ∃ entries source, node = .map entries ∧ value = .table (some origin) source ∧
      Source.ofEntries? origin entries = some source := by
  cases node with
  | map entries =>
    rw [Source.ofNode?, Option.map_eq_some_iff] at read
    obtain ⟨source, read, rfl⟩ := read
    exact ⟨entries, source, rfl, rfl, read⟩
  | _ => exact isMapping.elim

theorem exists_text {origin : String} {node : Node} {value : Value} (isScalar : IsScalar node)
    (read : Source.ofNode? origin node = some value) : ∃ text, value.text? = some text := by
  cases node with
  | real text =>
    rw [Source.ofNode?, Source.real?, Option.map_eq_some_iff] at read
    obtain ⟨number, _, rfl⟩ := read
    exact ⟨_, rfl⟩
  | bool | int | text =>
    rw [Source.ofNode?] at read
    cases read
    exact ⟨_, rfl⟩
  | _ => exact isScalar.elim

/-- The table of an orderly document is suited to supply settings. -/
theorem Orderly.suited {origin : String} {entries : List (Node × Node)}
    {source : List (String × Value)} (orderly : Orderly (.map entries))
    (read : Source.ofEntries? origin entries = some source) : Suited source where
  names := fun entry member => by
    have named : entry.1 ∈ keys (.map entries) := by
      rw [← names_ofEntries? read]
      exact List.mem_map_of_mem member
    exact ofText?_name (orderly.named entry.1 named)
  distinct := by
    rw [lowered_names read]
    exact orderly.distinct
  sections := fun place found supplied => by
    obtain ⟨node, there, is⟩ := node_of_supplied read supplied
    obtain ⟨isMapping, distinct, scalars⟩ := orderly.sections place node there
    obtain ⟨inner, innerSource, rfl, rfl, readInner⟩ := exists_entries isMapping is
    refine ⟨⟨_, _, rfl⟩, ?_, fun value held => ?_⟩
    · rw [Value.entries, lowered_names readInner]
      exact distinct
    · obtain ⟨scalar, stands, is⟩ := node_of_supplied readInner held
      exact exists_text (scalars scalar stands) is

/-- The table of an orderly document supplies the texts that the document holds. -/
theorem Orderly.supply {origin : String} {entries : List (Node × Node)}
    {source : List (String × Value)} (orderly : Orderly (.map entries))
    (read : Source.ofEntries? origin entries = some source) :
    supply? source = documentText? (.map entries) := by
  funext place
  rw [supply?, documentText?, supplied_ofEntries? read]
  cases there : valueOf? place.sectionName (.map entries) with
  | none => rfl
  | some node =>
    obtain ⟨value, is⟩ := value_of_entry read there
    obtain ⟨isMapping, _, _⟩ := orderly.sections place node there
    obtain ⟨inner, innerSource, rfl, rfl, readInner⟩ := exists_entries isMapping is
    rw [Option.bind_some, is, Option.bind_some, Option.bind_some, Value.entries,
      supplied_ofEntries? readInner]
    cases valueOf? place.fieldName (.map inner) with
    | none => rfl
    | some scalar => exact text_ofNode? origin scalar

end GroupReplay.Settings
