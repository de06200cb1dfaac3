import Fingermouse.TomlText
import Fingermouse.TyposRollout

/-!
# The generated configuration

`render_typos_config` of `typos_rollout.py`: the text of `typos.toml`.

* `readToml_render`: what is rendered is read back as the dictionary's
  exclusions, patterns and corrections, whatever characters they hold.
-/

namespace Fingermouse.TyposRollout

open Text TomlText

/-- `_toml_string`. -/
def tomlString (value : Str) : Str := jsonString value

/-- `_render_array`. -/
def renderArray (name : Str) (values : List Str) : List Str :=
  (name ++ " = [".toList) ::
    (values.map fun value => "    ".toList ++ tomlString value ++ ",".toList) ++ ["]".toList]

/-- The lines of the configuration.  The mappings come in the order of
`dict(sorted(..))`. -/
def configLines (dictionary : Dictionary) (mappings : AList fun _ : Str => Str) : List Str :=
  ["# Generated from the shared en-GB-oxendict dictionary.".toList,
    "# Regenerate with scripts/generate_typos_config.py; do not edit by hand.".toList,
    [],
    "[files]".toList] ++
  renderArray "extend-exclude".toList dictionary.excludedFiles ++
  [[],
    "[default]".toList,
    "locale = \"en-gb\"".toList] ++
  renderArray "extend-ignore-re".toList dictionary.ignorePatterns ++
  [[],
    "[default.extend-words]".toList] ++
  mappings.items.sortedPairs.map fun (word, correction) =>
    tomlString word ++ " = ".toList ++ tomlString correction

/-- `render_typos_config`. -/
def renderTyposConfig (py : Python) (dictionary : Dictionary) : Except PyError Str := do
  let mappings ← generateWordMappings py dictionary
  let rendered := joinLines (configLines dictionary mappings)
  let _ ← py.tomlLoads rendered
  return rendered

/-! ## Reading it back -/

/-- The entries of a configuration, by its words. -/
def Dictionary.entries (dictionary : Dictionary) (words : List (Str × Str)) : List Entry :=
  [⟨"files".toList, "extend-exclude".toList, .array dictionary.excludedFiles⟩,
    ⟨"default".toList, "locale".toList, .string "en-gb".toList⟩,
    ⟨"default".toList, "extend-ignore-re".toList, .array dictionary.ignorePatterns⟩] ++
  words.map fun word => ⟨"default.extend-words".toList, word.1, .string word.2⟩

/-- The lines are read back. -/
theorem foldlM_readLine_configLines (dictionary : Dictionary)
    (mappings : AList fun _ : Str => Str) :
    (configLines dictionary mappings).foldlM Reader.readLine ⟨[], [], none⟩ =
      some ⟨dictionary.entries mappings.items.sortedPairs, "default.extend-words".toList,
        none⟩ := by
  let files : Entry := ⟨"files".toList, "extend-exclude".toList, .array dictionary.excludedFiles⟩
  let locale : Entry := ⟨"default".toList, "locale".toList, .string "en-gb".toList⟩
  have begun : ["# Generated from the shared en-GB-oxendict dictionary.".toList,
      "# Regenerate with scripts/generate_typos_config.py; do not edit by hand.".toList, [],
      "[files]".toList].foldlM Reader.readLine ⟨[], [], none⟩ = some ⟨[], "files".toList, none⟩ :=
    rfl
  have excluded : (renderArray "extend-exclude".toList dictionary.excludedFiles).foldlM
      Reader.readLine ⟨[], "files".toList, none⟩ = some ⟨[files], "files".toList, none⟩ :=
    Reader.foldlM_readLine_array _ 4 _ rfl
  have opened : [[], "[default]".toList, "locale = \"en-gb\"".toList].foldlM Reader.readLine
      ⟨[files], "files".toList, none⟩ = some ⟨[files, locale], "default".toList, none⟩ := rfl
  have ignored : (renderArray "extend-ignore-re".toList dictionary.ignorePatterns).foldlM
      Reader.readLine ⟨[files, locale], "default".toList, none⟩ =
        some ⟨dictionary.entries [], "default".toList, none⟩ :=
    Reader.foldlM_readLine_array _ 4 _ rfl
  have words : [[], "[default.extend-words]".toList].foldlM Reader.readLine
      ⟨dictionary.entries [], "default".toList, none⟩ =
        some ⟨dictionary.entries [], "default.extend-words".toList, none⟩ := rfl
  simp only [configLines, List.foldlM_append, Option.bind_eq_bind, begun, Option.bind_some]
  rw [excluded, Option.bind_some, opened, Option.bind_some, ignored, Option.bind_some, words,
    Option.bind_some]
  exact Reader.foldlM_readLine_pairs ⟨dictionary.entries [], "default.extend-words".toList, none⟩
    mappings.items.sortedPairs rfl

theorem written_renderArray {name : Str} (written : Written name) (values : List Str) :
    ∀ line ∈ renderArray name values, Written line := by
  intro line listed
  simp only [renderArray, List.cons_append, List.mem_cons, List.mem_append, List.mem_map,
    List.not_mem_nil, or_false] at listed
  rcases listed with rfl | ⟨value, -, rfl⟩ | rfl
  · exact written.append (by decide)
  · have indented : Written ("    ".toList ++ tomlString value) :=
      Written.append (by decide) (written_jsonString value)
    exact indented.append (by decide)
  · decide

theorem written_configLines (dictionary : Dictionary) (mappings : AList fun _ : Str => Str) :
    ∀ line ∈ configLines dictionary mappings, Written line := by
  unfold configLines
  simp only [List.forall_mem_append, List.forall_mem_map]
  refine ⟨⟨⟨⟨⟨by decide, ?_⟩, by decide⟩, ?_⟩, by decide⟩, ?_⟩
  · exact written_renderArray (by decide) _
  · exact written_renderArray (by decide) _
  · intro pair _
    exact ⟨⟨written_jsonString pair.1, by decide⟩, written_jsonString pair.2⟩

theorem sortedPairs_keys_nodup (mappings : AList fun _ : Str => Str) :
    (mappings.items.sortedPairs.map Prod.fst).Nodup := by
  rw [((List.sortedPairs_perm mappings.items).map Prod.fst).nodup_iff, AList.map_fst_items]
  exact mappings.keys_nodup

/-- TOML has no U+007F in a document. -/
def RefusesDelete (py : Python) : Prop :=
  ∀ text document, '\x7f' ∈ text → py.tomlLoads text ≠ .ok document

/-- What is rendered is read back, with the mappings that are generated. -/
theorem exists_mappings_of_render {py : Python} (strict : RefusesDelete py)
    {dictionary : Dictionary} {rendered : Str}
    (done : renderTyposConfig py dictionary = .ok rendered) :
    ∃ mappings, generateWordMappings py dictionary = .ok mappings ∧
      readToml rendered = some (dictionary.entries mappings.items.sortedPairs) := by
  obtain ⟨mappings, generated, done⟩ := Except.bind_eq_ok_iff.mp done
  obtain ⟨document, loaded, done⟩ := Except.bind_eq_ok_iff.mp done
  cases done
  refine ⟨mappings, generated, ?_⟩
  refine (readToml_joinLines (written_configLines dictionary mappings)
    fun member => strict _ document member loaded).trans ?_
  exact congrArg (Option.bind · _) (foldlM_readLine_configLines dictionary mappings)

/-- The words are the corrections of the dictionary. -/
theorem mem_words_iff {py : Python} {dictionary : Dictionary}
    {mappings : AList fun _ : Str => Str}
    (generated : generateWordMappings py dictionary = .ok mappings) (word correction : Str) :
    (word, correction) ∈ mappings.items.sortedPairs ↔ dictionary.Maps word correction := by
  rw [List.mem_sortedPairs_iff, AList.mem_items_iff, lookup_generateWordMappings generated]

/-- What is rendered is read back: the exclusions, the patterns and, for every
word once, its correction. -/
theorem readToml_render (py : Python) (strict : RefusesDelete py) (dictionary : Dictionary)
    (rendered : Str) (done : renderTyposConfig py dictionary = .ok rendered) :
    ∃ words, readToml rendered = some (dictionary.entries words) ∧
      (words.map Prod.fst).Nodup ∧
      ∀ word correction, (word, correction) ∈ words ↔ dictionary.Maps word correction := by
  obtain ⟨mappings, generated, read⟩ := exists_mappings_of_render strict done
  exact ⟨_, read, sortedPairs_keys_nodup mappings, mem_words_iff generated⟩

/-! ### Two configurations -/

def tehConfig : Str :=
  joinLines ["# Generated from the shared en-GB-oxendict dictionary.".toList,
    "# Regenerate with scripts/generate_typos_config.py; do not edit by hand.".toList,
    [],
    "[files]".toList,
    "extend-exclude = [".toList,
    "]".toList,
    [],
    "[default]".toList,
    "locale = \"en-gb\"".toList,
    "extend-ignore-re = [".toList,
    "]".toList,
    [],
    "[default.extend-words]".toList,
    "\"teh\" = \"the\"".toList]

/-- What a configuration is parsed to. -/
def configDocument (excluded ignored : List Object) (words : Dict Object) : Dict Object where
  keys := ["files".toList, "default".toList]
  distinct := by decide
  value key :=
    if key = "files".toList then .dict (.single "extend-exclude".toList (.list excluded))
    else .dict {
      keys := ["locale".toList, "extend-ignore-re".toList, "extend-words".toList]
      distinct := by decide
      value := fun key =>
        if key = "locale".toList then .str "en-gb".toList
        else if key = "extend-ignore-re".toList then .list ignored
        else .dict words }

/-- Of everything one, with characters that are escaped. -/
def quotedDictionary : Dictionary :=
  ⟨[], ["naïve".toList], [("say \"teh\"".toList, "say\t\\the".toList)], ["\\d+".toList],
    ["*.lock".toList]⟩

def quotedConfig : Str :=
  joinLines ["# Generated from the shared en-GB-oxendict dictionary.".toList,
    "# Regenerate with scripts/generate_typos_config.py; do not edit by hand.".toList,
    [],
    "[files]".toList,
    "extend-exclude = [".toList,
    "    \"*.lock\",".toList,
    "]".toList,
    [],
    "[default]".toList,
    "locale = \"en-gb\"".toList,
    "extend-ignore-re = [".toList,
    "    \"\\\\d+\",".toList,
    "]".toList,
    [],
    "[default.extend-words]".toList,
    "\"naïve\" = \"naïve\"".toList,
    "\"say \\\"teh\\\"\" = \"say\\t\\\\the\"".toList]

def quotedWords : Dict Object where
  keys := ["naïve".toList, "say \"teh\"".toList]
  distinct := by decide
  value key := .str (if key = "naïve".toList then key else "say\t\\the".toList)

/-- A library that can parse the two configurations. -/
def configPython : Python where
  tomlLoads text :=
    if text = tehConfig then
      .ok (configDocument [] [] (.single "teh".toList (.str "the".toList)))
    else if text = quotedConfig then
      .ok (configDocument [.str "*.lock".toList] [.str "\\d+".toList] quotedWords)
    else samplePython.tomlLoads text
  repr := samplePython.repr

theorem render_quoted : renderTyposConfig configPython quotedDictionary = .ok quotedConfig := by
  decide +kernel

theorem known_of_configPython {text : Str} {document : Dict Object}
    (loaded : configPython.tomlLoads text = .ok document) :
    text ∈ [tehConfig, quotedConfig, organText, tehText] := by
  simp only [configPython, samplePython] at loaded
  split_ifs at loaded with config quoted organ teh
  · exact config ▸ List.mem_cons_self
  all_goals simp [*]

theorem refusesDelete_config : RefusesDelete configPython := by
  intro text document deletes loaded
  have plain : ∀ known ∈ [tehConfig, quotedConfig, organText, tehText], '\x7f' ∉ known := by
    decide +kernel
  exact plain text (known_of_configPython loaded) deletes

theorem readToml_render_quoted :
    ∃ words, readToml quotedConfig = some (quotedDictionary.entries words) ∧
      (words.map Prod.fst).Nodup ∧ ("naïve".toList, "naïve".toList) ∈ words ∧
      ("say \"teh\"".toList, "say\t\\the".toList) ∈ words := by
  obtain ⟨words, read, distinct, maps⟩ :=
    readToml_render configPython refusesDelete_config quotedDictionary quotedConfig render_quoted
  exact ⟨words, read, distinct, (maps _ _).mpr (.inl (by decide)),
    (maps _ _).mpr (.inr (.inl (by decide)))⟩

end Fingermouse.TyposRollout
