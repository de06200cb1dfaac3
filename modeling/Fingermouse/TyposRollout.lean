import Fingermouse.Agreement
import Fingermouse.Result
import Fingermouse.Text
import Mathlib.Data.Char
import Mathlib.Data.List.Lex

/-!
# Spelling policies

`typos_rollout.py` up to the generated word mappings: the checks of a
dictionary, the merge of the shared dictionary with a local overlay and the
expansion of a dictionary into corrections.

* `exists_generateWordMappings_iff`, `lookup_generateWordMappings`: a dictionary
  has mappings exactly if it corrects no word in two ways, and they are its
  corrections.
* `mergeDictionaries_maps_iff`: a merge corrects what either part does.
* `merge_keeps`: an overlay never weakens the base.
-/

namespace Fingermouse.TyposRollout

open Text

/-! ## Python -/

/-- The exceptions that an `except` clause here tells apart.  A `TOMLDecodeError`
is a `ValueError`. -/
inductive PyError where
  | osError (message : Str)
  | fileNotFoundError (message : Str)
  | typeError (message : Str)
  | valueError (message : Str)
  | tomlDecodeError (message : Str)
  | unicodeDecodeError
  | other (message : Str)
deriving DecidableEq

namespace PyError

def isOSError : PyError → Bool
  | .osError _ | .fileNotFoundError _ => true
  | _ => false

def isTypeOrValueError : PyError → Bool
  | .typeError _ | .valueError _ | .tomlDecodeError _ | .unicodeDecodeError => true
  | _ => false

def isTomlDecodeError : PyError → Bool
  | .tomlDecodeError _ => true
  | _ => false

end PyError

/-- `dict[str, α]`; what `value` says of other keys is of no account. -/
structure Dict (α : Type) where
  keys : List Str
  distinct : keys.Nodup
  value : Str → α

namespace Dict

variable {α : Type}

def get (dict : Dict α) (key : Str) : Option α :=
  if key ∈ dict.keys then some (dict.value key) else none

def items (dict : Dict α) : List (Str × α) := dict.keys.map fun key => (key, dict.value key)

def empty (value : α) : Dict α := ⟨[], List.nodup_nil, fun _ => value⟩

def single (key : Str) (value : α) : Dict α := ⟨[key], List.nodup_singleton key, fun _ => value⟩

theorem value_eq_of_mem_items {dict : Dict α} {key : Str} {value : α}
    (item : (key, value) ∈ dict.items) : dict.value key = value := by
  obtain ⟨key', -, same⟩ := List.mem_map.mp item
  cases same
  rfl

end Dict

/-- What a document holds.  Numbers, booleans, dates and times are scalars,
each with its `repr` and, if Python compares it with numbers, its value. -/
inductive Object where
  | none
  | str (text : Str)
  | scalar (number : Option Rat) (repr : Str)
  | list (members : List Object)
  | dict (members : Dict Object)

namespace Object

def text? : Object → Option Str
  | .str text => some text
  | _ => Option.none

/-- `isinstance(value, str)`. -/
def isStr (value : Object) : Bool := value.text?.isSome

/-- The number that an object is equal to. -/
def number? : Object → Option Rat
  | .scalar number _ => number
  | _ => Option.none

end Object

/-- The parts of Python's library that are taken as they are. -/
structure Python where
  tomlLoads : Str → Except PyError (Dict Object)
  repr : Object → Str

/-- `bytes.decode()`. -/
def decode (content : Bytes) : Except PyError Str :=
  (fromUtf8 content).elim (.error .unicodeDecodeError) .ok

/-- The newlines of a file opened as text. -/
def universalNewlines : Str → Str
  | '\r' :: '\n' :: rest => '\n' :: universalNewlines rest
  | '\r' :: rest => '\n' :: universalNewlines rest
  | c :: rest => c :: universalNewlines rest
  | [] => []

/-! ## Dictionaries -/

def suffixPairs : List (Str × Str) :=
  [("ise".toList, "ize".toList), ("ises".toList, "izes".toList),
    ("ised".toList, "ized".toList), ("ising".toList, "izing".toList),
    ("iser".toList, "izer".toList), ("isers".toList, "izers".toList),
    ("isable".toList, "izable".toList), ("isation".toList, "ization".toList),
    ("isations".toList, "izations".toList)]

structure Dictionary where
  stems : List Str
  accepted : List Str
  corrections : List (Str × Str)
  ignorePatterns : List Str
  excludedFiles : List Str
deriving DecidableEq

section

variable (py : Python)

/-- `_string_list`. -/
def stringList (table : Dict Object) (key : Str) : Except PyError (List Str) :=
  let refused := .error (.typeError (py.repr (.str key) ++ " must be a list of strings".toList))
  match (table.get key).getD (.list []) with
  | .list members =>
      if members.all Object.isStr then .ok (members.filterMap Object.text?).sortedSet
      else refused
  | _ => refused

/-- `_table`. -/
def table (document : Dict Object) (key : Str) : Except PyError (Dict Object) :=
  match (document.get key).getD (.dict (.empty .none)) with
  | .dict members => .ok members
  | _ => .error (.typeError (py.repr (.str key) ++ " must be a table".toList))

/-- The items of the corrections table, once they are known to be strings. -/
def stringItems (table : Dict Object) : Except PyError (List (Str × Str)) :=
  if table.items.all fun item => item.2.isStr then
    .ok (table.items.filterMap fun item => item.2.text?.map (Prod.mk item.1))
  else .error (.typeError "word corrections must map strings to strings".toList)

/-- `_dictionary_from_text`. -/
def dictionaryFromText (text : Str) : Except PyError Dictionary := do
  let document ← py.tomlLoads text
  let schema := (document.get "schema".toList).getD .none
  if schema.number? ≠ some 1 then
    .error (.valueError ("unsupported dictionary schema ".toList ++ py.repr schema))
  else
    let oxford ← table py document "oxford".toList
    let words ← table py document "words".toList
    let patterns ← table py document "patterns".toList
    let files ← table py document "files".toList
    let correctionsTable ← table py words "corrections".toList
    let corrections ← stringItems correctionsTable
    let stems ← stringList py oxford "stems".toList
    let accepted ← stringList py words "accepted".toList
    let ignorePatterns ← stringList py patterns "ignore".toList
    let excludedFiles ← stringList py files "exclude".toList
    return ⟨stems, accepted, corrections.sortedPairs, ignorePatterns, excludedFiles⟩

/-- `load_dictionary`, given what reading the file comes to. -/
def loadDictionary (file : Except PyError Bytes) : Except PyError Dictionary := do
  let content ← file
  let text ← decode content
  dictionaryFromText py (universalNewlines text)

/-! ## Merging -/

/-- The error of a second correction for a word. -/
def conflict (kind word existing correction : Str) : PyError :=
  .valueError ("conflicting ".toList ++ kind ++ " for ".toList ++ py.repr (.str word) ++
    ": ".toList ++ py.repr (.str existing) ++ " != ".toList ++ py.repr (.str correction))

/-- `merge_dictionaries`. -/
def mergeDictionaries (base overlay : Dictionary) : Except PyError Dictionary := do
  let corrections ← AList.insertAll (conflict py "correction".toList)
    (.ofPairs base.corrections) overlay.corrections
  return {
    stems := (base.stems ++ overlay.stems).sortedSet
    accepted := (base.accepted ++ overlay.accepted).sortedSet
    corrections := corrections.items.sortedPairs
    ignorePatterns := (base.ignorePatterns ++ overlay.ignorePatterns).sortedSet
    excludedFiles := (base.excludedFiles ++ overlay.excludedFiles).sortedSet }

/-! ## Word mappings -/

/-- The pairs that `add` is given for a stem. -/
def expansions (stem : Str) : List (Str × Str) :=
  suffixPairs.flatMap fun (plainBritish, oxford) =>
    [(stem ++ plainBritish, stem ++ oxford), (stem ++ oxford, stem ++ oxford)]

/-- `generate_word_mappings`. -/
def generateWordMappings (dictionary : Dictionary) :
    Except PyError (AList fun _ : Str => Str) := do
  let mappings := AList.ofPairs (dictionary.accepted.map fun word => (word, word))
  let mappings ← AList.insertAll (conflict py "generated correction".toList) mappings
    (dictionary.corrections ++ dictionary.stems.flatMap expansions)
  return .ofPairs mappings.items.sortedPairs

end

/-! ## What a dictionary corrects -/

namespace Dictionary

/-- The dictionary has the word corrected so, by whichever of its entries. -/
def Maps (dictionary : Dictionary) (word correction : Str) : Prop :=
  word ∈ dictionary.accepted ∧ correction = word ∨
    (word, correction) ∈ dictionary.corrections ∨
    ∃ stem ∈ dictionary.stems, (word, correction) ∈ expansions stem

/-- The corrections table gives no word two corrections. -/
def Consistent (dictionary : Dictionary) : Prop :=
  Relator.RightUnique fun word correction => (word, correction) ∈ dictionary.corrections

end Dictionary

variable {py : Python}

theorem unique_of_stringItems {table : Dict Object} {corrections : List (Str × Str)}
    (checked : stringItems table = .ok corrections) :
    Relator.RightUnique fun word correction => (word, correction) ∈ corrections := by
  unfold stringItems at checked
  split_ifs at checked with strings
  cases checked
  have entry : ∀ {word correction : Str},
      (word, correction) ∈ table.items.filterMap (fun item => item.2.text?.map (Prod.mk item.1)) →
      (table.value word).text? = some correction := by
    intro word correction listed
    obtain ⟨⟨key, value⟩, item, pair⟩ := List.mem_filterMap.mp listed
    obtain ⟨text, read, same⟩ := Option.map_eq_some_iff.mp pair
    cases same
    rwa [Dict.value_eq_of_mem_items item]
  intro word one other listed listed'
  exact Option.some.inj ((entry listed).symm.trans (entry listed'))

/-- The corrections of a dictionary are the items of a table of its document. -/
theorem exists_table_of_dictionaryFromText {text : Str} {dictionary : Dictionary}
    (parsed : dictionaryFromText py text = .ok dictionary) :
    ∃ table corrections, stringItems table = .ok corrections ∧
      dictionary.corrections = corrections.sortedPairs := by
  obtain ⟨document, -, parsed⟩ := Except.bind_eq_ok_iff.mp parsed
  dsimp only at parsed
  split_ifs at parsed
  obtain ⟨oxford, -, parsed⟩ := Except.bind_eq_ok_iff.mp parsed
  obtain ⟨words, -, parsed⟩ := Except.bind_eq_ok_iff.mp parsed
  obtain ⟨patterns, -, parsed⟩ := Except.bind_eq_ok_iff.mp parsed
  obtain ⟨files, -, parsed⟩ := Except.bind_eq_ok_iff.mp parsed
  obtain ⟨correctionsTable, -, parsed⟩ := Except.bind_eq_ok_iff.mp parsed
  obtain ⟨corrections, checked, parsed⟩ := Except.bind_eq_ok_iff.mp parsed
  obtain ⟨stems, -, parsed⟩ := Except.bind_eq_ok_iff.mp parsed
  obtain ⟨accepted, -, parsed⟩ := Except.bind_eq_ok_iff.mp parsed
  obtain ⟨ignorePatterns, -, parsed⟩ := Except.bind_eq_ok_iff.mp parsed
  obtain ⟨excludedFiles, -, parsed⟩ := Except.bind_eq_ok_iff.mp parsed
  cases parsed
  exact ⟨correctionsTable, corrections, checked, rfl⟩

/-- A table has one value for a key, so a loaded dictionary is consistent. -/
theorem consistent_of_loadDictionary {file : Except PyError Bytes} {dictionary : Dictionary}
    (loaded : loadDictionary py file = .ok dictionary) : dictionary.Consistent := by
  obtain ⟨content, -, loaded⟩ := Except.bind_eq_ok_iff.mp loaded
  obtain ⟨text, -, loaded⟩ := Except.bind_eq_ok_iff.mp loaded
  obtain ⟨table, corrections, checked, same⟩ := exists_table_of_dictionaryFromText loaded
  unfold Dictionary.Consistent
  rw [same, Relator.rightUnique_congr fun _ _ => List.mem_sortedPairs_iff]
  exact unique_of_stringItems checked

/-! ## Mappings are what a dictionary corrects -/

theorem lookup_accepted {accepted : List Str} {word correction : Str} :
    (AList.ofPairs (accepted.map fun word => (word, word))).lookup word = some correction ↔
      word ∈ accepted ∧ correction = word := by
  have pair : ∀ word correction, (word, correction) ∈ accepted.map (fun word => (word, word)) ↔
      word ∈ accepted ∧ correction = word := by
    intro word correction
    rw [List.mem_map]
    constructor
    · intro listed
      obtain ⟨_, member, same⟩ := listed
      cases same
      exact ⟨member, rfl⟩
    · intro listed
      obtain ⟨member, rfl⟩ := listed
      exact ⟨_, member, rfl⟩
  rw [AList.lookup_ofPairs, pair]
  rw [Relator.rightUnique_congr pair]
  intro word one other listed listed'
  rw [listed.2, listed'.2]

theorem joined_accepted_iff {dictionary : Dictionary} {word correction : Str} :
    AList.Joined (.ofPairs (dictionary.accepted.map fun word => (word, word)))
      (dictionary.corrections ++ dictionary.stems.flatMap expansions) word correction ↔
      dictionary.Maps word correction := by
  unfold AList.Joined Dictionary.Maps
  rw [lookup_accepted, List.mem_append, List.mem_flatMap]

/-- A dictionary has mappings exactly if it corrects no word in two ways. -/
theorem exists_generateWordMappings_iff {dictionary : Dictionary} :
    (∃ mappings, generateWordMappings py dictionary = .ok mappings) ↔
      Relator.RightUnique dictionary.Maps := by
  unfold generateWordMappings
  rw [Except.exists_bind_pure_iff, AList.exists_insertAll_iff]
  exact Relator.rightUnique_congr fun _ _ => joined_accepted_iff

/-- The mappings of a dictionary are its corrections. -/
theorem lookup_generateWordMappings {dictionary : Dictionary} {mappings : AList fun _ : Str => Str}
    (generated : generateWordMappings py dictionary = .ok mappings) (word correction : Str) :
    mappings.lookup word = some correction ↔ dictionary.Maps word correction := by
  obtain ⟨filled, fill, same⟩ := Except.bind_eq_ok_iff.mp generated
  cases same
  rw [AList.lookup_ofPairs_sortedPairs, AList.lookup_insertAll fill, joined_accepted_iff]

/-! ## A merge corrects what either part does -/

theorem joined_corrections_iff {base overlay : Dictionary} (consistent : base.Consistent)
    {word correction : Str} :
    AList.Joined (.ofPairs base.corrections) overlay.corrections word correction ↔
      (word, correction) ∈ base.corrections ∨ (word, correction) ∈ overlay.corrections := by
  unfold AList.Joined
  rw [AList.lookup_ofPairs consistent]

/-- The corrections of a merge are those of its parts. -/
theorem mem_corrections_iff {base overlay merged : Dictionary} (consistent : base.Consistent)
    (merges : mergeDictionaries py base overlay = .ok merged) (word correction : Str) :
    (word, correction) ∈ merged.corrections ↔
      (word, correction) ∈ base.corrections ∨ (word, correction) ∈ overlay.corrections := by
  obtain ⟨filled, fill, same⟩ := Except.bind_eq_ok_iff.mp merges
  cases same
  rw [List.mem_sortedPairs_iff, AList.mem_items_iff, AList.lookup_insertAll fill,
    joined_corrections_iff consistent]

theorem mergeDictionaries_maps_iff {base overlay merged : Dictionary}
    (consistent : base.Consistent) (merges : mergeDictionaries py base overlay = .ok merged)
    (word correction : Str) :
    merged.Maps word correction ↔
      base.Maps word correction ∨ overlay.Maps word correction := by
  have corrections := mem_corrections_iff consistent merges word correction
  obtain ⟨filled, -, same⟩ := Except.bind_eq_ok_iff.mp merges
  cases same
  unfold Dictionary.Maps
  rw [corrections]
  simp only [List.mem_sortedSet_iff, List.mem_append, or_and_right, exists_or]
  exact (or_congr_right or_or_or_comm).trans or_or_or_comm

/-- Merging succeeds exactly if the parts correct no word in two ways. -/
theorem exists_mergeDictionaries_iff {base overlay : Dictionary} (consistent : base.Consistent) :
    (∃ merged, mergeDictionaries py base overlay = .ok merged) ↔
      Relator.RightUnique fun word correction =>
        (word, correction) ∈ base.corrections ∨ (word, correction) ∈ overlay.corrections := by
  unfold mergeDictionaries
  rw [Except.exists_bind_pure_iff, AList.exists_insertAll_iff]
  exact Relator.rightUnique_congr fun _ _ => joined_corrections_iff consistent

/-- Merged the other way round, two dictionaries come to the same. -/
theorem mergeDictionaries_swap {base overlay merged : Dictionary} (consistent : base.Consistent)
    (consistent' : overlay.Consistent)
    (merges : mergeDictionaries py base overlay = .ok merged) :
    mergeDictionaries py overlay base = .ok merged := by
  have swapped : ∃ swapped, mergeDictionaries py overlay base = .ok swapped := by
    rw [exists_mergeDictionaries_iff consistent', Relator.rightUnique_congr fun _ _ => or_comm]
    exact (exists_mergeDictionaries_iff consistent).mp ⟨merged, merges⟩
  obtain ⟨swapped, swaps⟩ := swapped
  have corrections : ∀ word correction,
      (word, correction) ∈ swapped.corrections ↔ (word, correction) ∈ merged.corrections := by
    intro word correction
    rw [mem_corrections_iff consistent' swaps, mem_corrections_iff consistent merges, or_comm]
  rw [swaps]
  obtain ⟨filled, -, same⟩ := Except.bind_eq_ok_iff.mp merges
  obtain ⟨filled', -, same'⟩ := Except.bind_eq_ok_iff.mp swaps
  cases same
  cases same'
  simp only [List.mem_sortedPairs_iff, AList.mem_items_iff] at corrections
  have members : ∀ l l' : List Str, (l ++ l').sortedSet = (l' ++ l).sortedSet :=
    fun l l' => List.sortedSet_congr fun word => by rw [List.mem_append, List.mem_append, or_comm]
  simp only [members overlay.stems, members overlay.accepted, members overlay.ignorePatterns,
    members overlay.excludedFiles, AList.sortedItems_congr corrections]

/-! ## An overlay never weakens the base -/

/-- The dictionary has mappings, and each of them is among the given ones. -/
def KeptIn (py : Python) (dictionary : Dictionary) (mappings : AList fun _ : Str => Str) : Prop :=
  ∃ own, generateWordMappings py dictionary = .ok own ∧
    ∀ word correction, own.lookup word = some correction →
      mappings.lookup word = some correction

theorem keptIn_of_maps {dictionary merged : Dictionary} {mappings : AList fun _ : Str => Str}
    (generated : generateWordMappings py merged = .ok mappings)
    (part : ∀ word correction, dictionary.Maps word correction → merged.Maps word correction) :
    KeptIn py dictionary mappings := by
  have unique := exists_generateWordMappings_iff.mp ⟨mappings, generated⟩
  have generates : ∃ own, generateWordMappings py dictionary = .ok own := by
    rw [exists_generateWordMappings_iff]
    intro word one other maps maps'
    exact unique (part word one maps) (part word other maps')
  obtain ⟨own, generated'⟩ := generates
  refine ⟨own, generated', fun word correction maps => ?_⟩
  rw [lookup_generateWordMappings generated'] at maps
  rw [lookup_generateWordMappings generated]
  exact part word correction maps

/-- Where two loaded dictionaries merge and the merge has mappings, each of them
has mappings of its own, all of which the merge keeps; and they merge either
way round or not at all, with one result. -/
theorem merge_keeps (py : Python) (baseFile overlayFile : Except PyError Bytes)
    (base overlay : Dictionary) (loadedBase : loadDictionary py baseFile = .ok base)
    (loadedOverlay : loadDictionary py overlayFile = .ok overlay) :
    (∀ merged mappings, mergeDictionaries py base overlay = .ok merged →
      generateWordMappings py merged = .ok mappings →
      KeptIn py base mappings ∧ KeptIn py overlay mappings) ∧
    ∀ merged, mergeDictionaries py overlay base = .ok merged ↔
      mergeDictionaries py base overlay = .ok merged := by
  have consistent := consistent_of_loadDictionary loadedBase
  have consistent' := consistent_of_loadDictionary loadedOverlay
  refine ⟨fun merged mappings merges generated => ?_, fun merged => ?_⟩
  · have maps := mergeDictionaries_maps_iff consistent merges
    constructor
    · exact keptIn_of_maps generated fun word correction held =>
        (maps word correction).mpr (.inl held)
    · exact keptIn_of_maps generated fun word correction held =>
        (maps word correction).mpr (.inr held)
  · exact ⟨mergeDictionaries_swap consistent' consistent,
      mergeDictionaries_swap consistent consistent'⟩

/-! ### A shared stem and a local correction -/

def organText : Str := "schema = 1\n[oxford]\nstems = [\"organ\"]\n".toList

def organDocument : Dict Object where
  keys := ["schema".toList, "oxford".toList]
  distinct := by decide
  value key :=
    if key = "schema".toList then .scalar (some 1) "1".toList
    else .dict (.single "stems".toList (.list [.str "organ".toList]))

def tehText : Str := "schema = 1\n[words.corrections]\nteh = \"the\"\n".toList

def tehDocument : Dict Object where
  keys := ["schema".toList, "words".toList]
  distinct := by decide
  value key :=
    if key = "schema".toList then .scalar (some 1) "1".toList
    else .dict (.single "corrections".toList
      (.dict (.single "teh".toList (.str "the".toList))))

/-- A library that can parse the two documents. -/
def samplePython : Python where
  tomlLoads text :=
    if text = organText then .ok organDocument
    else if text = tehText then .ok tehDocument
    else .error (.tomlDecodeError "Invalid statement".toList)
  repr
    | .str text => "'".toList ++ text ++ "'".toList
    | .scalar _ repr => repr
    | _ => "None".toList

theorem loadDictionary_asBytes {py : Python} (text : Str) :
    loadDictionary py (.ok (asBytes text)) = dictionaryFromText py (universalNewlines text) := by
  simp only [loadDictionary, decode, bind, Except.bind, fromUtf8_asBytes, Option.elim_some]

theorem loadDictionary_organ :
    loadDictionary samplePython (.ok (asBytes organText)) =
      .ok ⟨["organ".toList], [], [], [], []⟩ := by
  rw [loadDictionary_asBytes]
  decide +kernel

theorem loadDictionary_teh :
    loadDictionary samplePython (.ok (asBytes tehText)) =
      .ok ⟨[], [], [("teh".toList, "the".toList)], [], []⟩ := by
  rw [loadDictionary_asBytes]
  decide +kernel

theorem merge_keeps_organ :
    ∃ merged mappings,
      mergeDictionaries samplePython ⟨["organ".toList], [], [], [], []⟩
        ⟨[], [], [("teh".toList, "the".toList)], [], []⟩ = .ok merged ∧
      generateWordMappings samplePython merged = .ok mappings ∧
      KeptIn samplePython ⟨["organ".toList], [], [], [], []⟩ mappings ∧
      KeptIn samplePython ⟨[], [], [("teh".toList, "the".toList)], [], []⟩ mappings := by
  have merges : mergeDictionaries samplePython ⟨["organ".toList], [], [], [], []⟩
      ⟨[], [], [("teh".toList, "the".toList)], [], []⟩ =
        .ok ⟨["organ".toList], [], [("teh".toList, "the".toList)], [], []⟩ := by
    decide +kernel
  have generates : (generateWordMappings samplePython
      ⟨["organ".toList], [], [("teh".toList, "the".toList)], [], []⟩).isOk = true := by
    decide +kernel
  obtain ⟨mappings, generated⟩ := Except.exists_of_isOk generates
  exact ⟨_, mappings, merges, generated, (merge_keeps samplePython _ _ _ _ loadDictionary_organ
    loadDictionary_teh).1 _ _ merges generated⟩

end Fingermouse.TyposRollout
