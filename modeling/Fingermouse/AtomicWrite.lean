import Fingermouse.Directory
import Fingermouse.Mealy
import Fingermouse.Text

/-!
# Atomic writes

`atomic_write` of `typos_rollout_cache.py`, called any number of times at once
for files of one directory in which nobody else writes.  A schedule interleaves
the system calls of all of them; each may raise, and a process may die at any
point.

* `reads_published`: a file holds the whole content of the call that replaced it
  last, or what it held before.
* `opened_stable`: who has opened a file goes on reading what it held then.
* `temporary_left`: a temporary file stays behind only after a call that raised
  or died.
-/

namespace Fingermouse.TyposRolloutCache

open Text

/-- A name as `NamedTemporaryFile` makes it, of the prefix that it is given and
what it draws. -/
def temporaryName (name token : Str) : Str := '.' :: name ++ '.' :: token

/-- The statement a call is at. -/
inductive Stage
  /-- `mkdir`, which is of no account to the directory, and `NamedTemporaryFile`. -/
  | create
  /-- The bytes that are not in the file yet; after all of them it is closed. -/
  | write (temporary : Str) (file : Nat) (rest : Bytes)
  | replace (temporary : Str)
  /-- The `finally` clause, with an exception to go on with unless replaced. -/
  | unlink (temporary : Str) (replaced : Bool)
  | returned
  | raised (left : Option Str)
  | crashed (left : Option Str)
deriving DecidableEq

namespace Stage

/-- The temporary file of a call that is not over. -/
def held : Stage → Option Str
  | .write temporary _ _ | .replace temporary | .unlink temporary _ => some temporary
  | _ => none

/-- The temporary file that a call has not removed. -/
def temporary : Stage → Option Str
  | .raised left | .crashed left => left
  | stage => stage.held

/-- The statement raises. -/
def fail : Stage → Stage
  | .create => .raised none
  | .write temporary _ _ => .raised (some temporary)
  | .replace temporary => .unlink temporary false
  | .unlink temporary _ => .raised (some temporary)
  | ended => ended

/-- The process dies. -/
def crash : Stage → Stage
  | .create => .crashed none
  | .write temporary _ _ | .replace temporary | .unlink temporary _ => .crashed (some temporary)
  | ended => ended

end Stage

/-- A call of `atomic_write`. -/
structure Writer where
  name : Str
  content : Bytes
  stage : Stage
deriving DecidableEq

/-- What happens to a call: its next system call, with what is drawn for a name
and how much of the content a write takes; an exception; or its end. -/
inductive Move
  | turn (token : Str) (more : Nat)
  | fail
  | crash

/-- A scheduling decision. -/
inductive Action
  | call (name : Str) (content : Bytes)
  | move (id : Nat) (move : Move)

inductive Event
  | silent
  | drew (temporary : Str)
  | published (name : Str) (content : Bytes)
deriving DecidableEq

structure System where
  directory : Directory Str UInt8
  writers : List Writer

/-- One move of a call. -/
def Writer.act (d : Directory Str UInt8) (w : Writer) :
    Move → Event × Directory Str UInt8 × Stage
  | .fail => (.silent, d, w.stage.fail)
  | .crash => (.silent, d, w.stage.crash)
  | .turn token more =>
      match w.stage with
      | .create =>
          let temporary := temporaryName w.name token
          if d.names temporary = none then
            (.drew temporary, d.create temporary, .write temporary d.files.length w.content)
          else (.silent, d, .create) -- Another name is drawn.
      | .write temporary file rest =>
          if rest = [] then (.silent, d, .replace temporary)
          else
            (.silent, d.append file (rest.take (more + 1)),
              .write temporary file (rest.drop (more + 1)))
      | .replace temporary =>
          if d.names temporary = none then (.silent, d, .unlink temporary false)
          else
            (.published w.name w.content, d.rename temporary w.name, .unlink temporary true)
      | .unlink temporary replaced =>
          (.silent, d.unlink temporary, if replaced then .returned else .raised none)
      | ended => (.silent, d, ended)

namespace System

/-- One step of a schedule. -/
def step (s : System) : Action → Event × System
  | .call name content => (.silent, { s with writers := s.writers ++ [⟨name, content, .create⟩] })
  | .move id move =>
      match s.writers[id]? with
      | none => (.silent, s)
      | some w =>
          let (event, directory, stage) := w.act s.directory move
          (event, ⟨directory, s.writers.set id { w with stage }⟩)

/-- The state a schedule leads to. -/
abbrev after (d : Directory Str UInt8) (schedule : List Action) : System :=
  Mealy.final step ⟨d, []⟩ schedule

/-- What happened along a schedule, in order. -/
def history (d : Directory Str UInt8) (schedule : List Action) : List Event :=
  (Mealy.trace step ⟨d, []⟩ schedule).map Prod.snd

/-- No name is drawn that a call has in use already: for its own temporary file,
or as the file that it replaces. -/
def Apart (s : System) : Action → Prop
  | .call name _ => ∀ w ∈ s.writers, w.stage.held ≠ some name
  | .move id (.turn token _) =>
      ∀ w ∈ s.writers[id]?, w.stage = .create →
        ∀ v ∈ s.writers, v.name ≠ temporaryName w.name token ∧
          v.stage.held ≠ some (temporaryName w.name token)
  | .move _ .fail | .move _ .crash => True

instance (s : System) (action : Action) : Decidable (s.Apart action) := by
  unfold Apart
  split <;> infer_instance

end System

/-! ## One move -/

/-- What a move can do. -/
inductive Moves (d : Directory Str UInt8) (w : Writer) :
    Event → Directory Str UInt8 → Stage → Prop
  | create {token : Str} :
    w.stage = .create → d.names (temporaryName w.name token) = none →
    Moves d w (.drew (temporaryName w.name token)) (d.create (temporaryName w.name token))
      (.write (temporaryName w.name token) d.files.length w.content)
  | write {temporary : Str} {file : Nat} {rest : Bytes} (count : Nat) :
    w.stage = .write temporary file rest →
    Moves d w .silent (d.append file (rest.take count)) (.write temporary file (rest.drop count))
  | close {temporary : Str} {file : Nat} :
    w.stage = .write temporary file [] → Moves d w .silent d (.replace temporary)
  | replace {temporary : Str} :
    w.stage = .replace temporary →
    Moves d w (.published w.name w.content) (d.rename temporary w.name) (.unlink temporary true)
  | spoil {temporary : Str} :
    w.stage = .replace temporary → Moves d w .silent d (.unlink temporary false)
  | unlink {temporary : Str} {replaced : Bool} :
    w.stage = .unlink temporary replaced →
    Moves d w .silent (d.unlink temporary) (if replaced then .returned else .raised none)
  /-- The call is over, or nothing happens. -/
  | rest {stage : Stage} :
    stage = w.stage ∨
      stage.held = none ∧ stage ≠ .returned ∧ stage.temporary = w.stage.temporary →
    Moves d w .silent d stage

theorem Writer.act_moves (d : Directory Str UInt8) (w : Writer) (move : Move) :
    Moves d w (w.act d move).1 (w.act d move).2.1 (w.act d move).2.2 := by
  cases move with
  | fail =>
      cases stage : w.stage <;> simp only [act, stage, Stage.fail]
      case replace => exact .spoil stage
      all_goals exact .rest (by simp [stage, Stage.held, Stage.temporary])
  | crash =>
      cases stage : w.stage <;> simp only [act, stage, Stage.crash] <;>
        exact .rest (by simp [stage, Stage.held, Stage.temporary])
  | turn token more =>
      cases stage : w.stage with
      | create =>
          simp only [act, stage]
          split_ifs with free
          · exact .create stage free
          · exact .rest (.inl stage.symm)
      | write temporary file rest =>
          simp only [act, stage]
          split_ifs with done
          · exact .close (done ▸ stage)
          · exact .write (more + 1) stage
      | replace temporary =>
          simp only [act, stage]
          split_ifs
          · exact .spoil stage
          · exact .replace stage
      | unlink temporary replaced =>
          simp only [act, stage]
          exact .unlink stage
      | _ =>
          simp only [act, stage]
          exact .rest (.inl stage.symm)

/-- What the directory has of a call. -/
def Stage.Sound (d : Directory Str UInt8) (content : Bytes) : Stage → Prop
  | .write temporary file rest =>
      d.Private temporary file ∧ ∃ written, d.files[file]? = some written ∧
        written ++ rest = content
  | .replace temporary => ∃ file, d.Private temporary file ∧ d.files[file]? = some content
  | _ => True

/-- The call has replaced its file. -/
def Stage.replaced : Stage → Bool
  | .unlink _ replaced => replaced
  | .returned => true
  | _ => false

/-- That stays so while the file of the call does. -/
theorem Stage.Sound.mono {d d' : Directory Str UInt8} {content : Bytes} {stage : Stage}
    (sound : stage.Sound d content)
    (kept : ∀ t file, stage.held = some t → d.Private t file →
      d'.Private t file ∧ d'.files[file]? = d.files[file]?) : stage.Sound d' content := by
  cases stage with
  | write temporary file rest =>
      obtain ⟨own, written, found, all⟩ := sound
      obtain ⟨own', same⟩ := kept temporary file rfl own
      exact ⟨own', written, same.trans found, all⟩
  | replace temporary =>
      obtain ⟨file, own, found⟩ := sound
      obtain ⟨own', same⟩ := kept temporary file rfl own
      exact ⟨file, own', same.trans found⟩
  | _ => trivial

/-- What a name reads after an event. -/
def Event.put (event : Event) (name : Str) (before : Option Bytes) : Option Bytes :=
  match event with
  | .published other content => if name = other then some content else before
  | _ => before

namespace Moves

variable {d d' : Directory Str UInt8} {w : Writer} {event : Event} {stage : Stage}

/-- A call holds the file it held, or one it has drawn. -/
theorem held (moves : Moves d w event d' stage) {t : Str} (holds : stage.held = some t) :
    w.stage.held = some t ∨ event = .drew t := by
  cases moves with
  | create => exact .inr (congrArg _ (Option.some.inj holds))
  | rest same =>
      rcases same with rfl | ⟨none, -⟩
      · exact .inl holds
      · cases none.symm.trans holds
  | @unlink _ replaced => cases replaced <;> cases holds
  | write _ before | close before | replace before | spoil before =>
      rw [before]
      exact .inl holds

/-- A call that has replaced its file has published the content. -/
theorem replaced (moves : Moves d w event d' stage) (done : stage.replaced = true) :
    w.stage.replaced = true ∨ event = .published w.name w.content := by
  cases moves with
  | replace => exact .inr rfl
  | unlink before =>
      rename_i replaced
      rw [before]
      cases replaced
      · cases done
      · exact .inl rfl
  | rest same =>
      rcases same with rfl | ⟨none, returned, -⟩
      · exact .inl done
      · cases stage with
        | returned => exact absurd rfl returned
        | unlink => cases none
        | _ => cases done
  | _ => cases done

/-- A temporary file that a move leaves is one the call had or has drawn, or it is
the file that is replaced. -/
theorem left (moves : Moves d w event d' stage) {t : Str} (there : d'.names t ≠ none)
    (target : w.name ≠ t) :
    stage.temporary = some t ∨ event ≠ .drew t ∧ d.names t ≠ none ∧ w.stage.temporary ≠ some t := by
  by_cases own : stage.temporary = some t
  · exact .inl own
  right
  cases moves with
  | create before =>
      have differs : t ≠ _ := fun same => own (congrArg _ same.symm)
      simp only [Directory.create, if_neg differs] at there
      rw [before]
      exact ⟨fun drew => differs (Event.drew.inj drew).symm, there, (Option.some_ne_none t).symm⟩
  | write _ before | close before | spoil before =>
      rw [before]
      exact ⟨by rintro ⟨⟩, there, own⟩
  | replace before =>
      rw [before]
      have differs : t ≠ _ := fun same => own (congrArg _ same.symm)
      simp only [Directory.rename, if_neg target.symm, if_neg differs] at there
      exact ⟨by rintro ⟨⟩, there, own⟩
  | unlink before =>
      rw [before]
      simp only [Directory.unlink, ne_eq, ite_eq_left_iff, not_forall] at there
      obtain ⟨differs, there⟩ := there
      exact ⟨by rintro ⟨⟩, there, fun same => differs (Option.some.inj same).symm⟩
  | rest same =>
      rcases same with rfl | ⟨-, -, same⟩
      · exact ⟨by rintro ⟨⟩, there, own⟩
      · exact ⟨by rintro ⟨⟩, there, same ▸ own⟩

/-- A file of which a call is not the writer stays as it is. -/
theorem file (moves : Moves d w event d' stage) {file : Nat} (there : file < d.files.length)
    (quiet : ∀ t rest, w.stage ≠ .write t file rest) :
    file < d'.files.length ∧ d'.files[file]? = d.files[file]? ∧
      ∀ t rest, stage ≠ .write t file rest := by
  cases moves with
  | create =>
      refine ⟨?_, List.getElem?_append_left there, fun t rest same => ?_⟩
      · exact Nat.lt_of_lt_of_le there (List.length_append ▸ Nat.le_add_right _ _)
      · cases same
        exact Nat.lt_irrefl _ there
  | @write temporary file' rest count before =>
      have differs : file' ≠ file := fun same => quiet temporary rest (same ▸ before)
      refine ⟨?_, Directory.files_append_ne differs, fun t rest same => ?_⟩
      · exact (List.length_modify ..).symm ▸ there
      · cases same
        exact differs rfl
  | close | spoil | replace => exact ⟨there, rfl, nofun⟩
  | @unlink _ replaced => exact ⟨there, rfl, by cases replaced <;> exact nofun⟩
  | rest same =>
      rcases same with rfl | ⟨none, -⟩
      · exact ⟨there, rfl, quiet⟩
      · refine ⟨there, rfl, fun t rest same => ?_⟩
        rw [same] at none
        cases none

/-- The directory has of the call what it should. -/
theorem sound (moves : Moves d w event d' stage) (sound : w.stage.Sound d w.content) :
    stage.Sound d' w.content := by
  cases moves with
  | create => exact ⟨Directory.private_create, [], List.getElem?_concat_length, rfl⟩
  | @write _ file rest count before =>
      rw [before] at sound
      obtain ⟨own, written, found, all⟩ := sound
      refine ⟨own.append .., written ++ rest.take count, ?_, ?_⟩
      · simp only [Directory.append, List.getElem?_modify, found, if_pos]
        rfl
      · rw [List.append_assoc, List.take_append_drop, all]
  | close before =>
      rw [before] at sound
      obtain ⟨own, written, found, all⟩ := sound
      rw [List.append_nil] at all
      exact ⟨_, own, all ▸ found⟩
  | replace | spoil => trivial
  | @unlink _ replaced => cases replaced <;> trivial
  | rest same =>
      rcases same with rfl | ⟨none, -⟩
      · exact sound
      · cases stage <;> trivial

/-- A move leaves alone what other calls hold. -/
theorem frame (moves : Moves d w event d' stage) (sound : w.stage.Sound d w.content) {t : Str}
    {file : Nat} (own : d.Private t file) (other : w.stage.held ≠ some t)
    (undrawn : event ≠ .drew t) (target : w.name ≠ t) :
    d'.Private t file ∧ d'.files[file]? = d.files[file]? := by
  cases moves with
  | create =>
      refine ⟨own.create fun same => undrawn (congrArg _ same.symm), ?_⟩
      exact List.getElem?_append_left (d.bound t file own.named)
  | @write temporary file' rest count before =>
      rw [before] at sound other
      have differs : temporary ≠ t := fun same => other (congrArg _ same)
      exact ⟨own.append .., Directory.files_append_ne (own.ne differs sound.1.named).symm⟩
  | replace before =>
      rw [before] at other
      exact ⟨own.rename (fun same => other (congrArg _ same.symm)) target.symm, rfl⟩
  | unlink before =>
      rw [before] at other
      exact ⟨own.unlink fun same => other (congrArg _ same.symm), rfl⟩
  | close | spoil | rest => exact ⟨own, rfl⟩

/-- Seen by a name that is no temporary file, a move does what its event says. -/
theorem read (moves : Moves d w event d' stage) (sound : w.stage.Sound d w.content) {name : Str}
    (other : w.stage.held ≠ some name) (undrawn : event ≠ .drew name) :
    d'.read name = event.put name (d.read name) := by
  cases moves with
  | create => exact Directory.read_create fun same => undrawn (congrArg _ same.symm)
  | @write temporary file rest count before =>
      rw [before] at sound other
      refine Directory.read_append fun named => other ?_
      exact congrArg some (sound.1.only name named).symm
  | replace before =>
      rw [before] at sound other
      obtain ⟨file, own, found⟩ := sound
      rw [Directory.read_rename fun same => other (congrArg _ same.symm), own.read, found]
      rfl
  | unlink before =>
      rw [before] at other
      exact Directory.read_unlink fun same => other (congrArg _ same.symm)
  | close | spoil | rest => rfl

end Moves

/-! ## One step -/

namespace System

variable {s : System} {action : Action}

theorem drew_of_act {w : Writer} {d : Directory Str UInt8} {move : Move} {t : Str}
    (drew : (w.act d move).1 = .drew t) :
    w.stage = .create ∧ ∃ token more, move = .turn token more ∧ t = temporaryName w.name token := by
  cases move with
  | fail | crash => cases drew
  | turn token more =>
      cases stage : w.stage <;> simp only [Writer.act, stage] at drew
      case create =>
        split_ifs at drew
        cases drew
        exact ⟨rfl, token, more, rfl, rfl⟩
      all_goals first | cases drew | (split_ifs at drew)

/-- A step brings a new call, or is a move of one. -/
theorem step_cases (s : System) (action : Action) :
    (∃ name content, action = .call name content ∧
      s.step action = (.silent, { s with writers := s.writers ++ [⟨name, content, .create⟩] })) ∨
    s.step action = (.silent, s) ∨
    ∃ id w event d stage, s.writers[id]? = some w ∧
      s.step action = (event, ⟨d, s.writers.set id { w with stage }⟩) ∧
      Moves s.directory w event d stage ∧
      (s.Apart action → ∀ t, event = .drew t →
        ∀ v ∈ s.writers, v.name ≠ t ∧ v.stage.held ≠ some t) := by
  cases action with
  | call name content => exact .inl ⟨name, content, rfl, rfl⟩
  | move id move =>
      right
      cases found : s.writers[id]? with
      | none => exact .inl (by simp only [step, found])
      | some w =>
          refine .inr ⟨id, w, _, _, _, found, by simp only [step, found],
            w.act_moves s.directory move, fun apart t drew => ?_⟩
          obtain ⟨stage, token, more, rfl, rfl⟩ := drew_of_act drew
          exact apart w found stage

/-- What holds of every call of a system: the directory has of it what it should,
no two hold one file, and none holds a file that another replaces. -/
structure Sound (s : System) : Prop where
  each : ∀ (i : Nat) (w : Writer), s.writers[i]? = some w → w.stage.Sound s.directory w.content
  apart : ∀ (i j : Nat) (w v : Writer) (t : Str), s.writers[i]? = some w →
    s.writers[j]? = some v → w.stage.held = some t → v.stage.held = some t → i = j
  target : ∀ (i j : Nat) (w v : Writer) (t : Str), s.writers[i]? = some w →
    s.writers[j]? = some v → w.stage.held = some t → v.name ≠ t

/-- A call in a list with one more, or with one changed. -/
theorem getElem?_concat_cases {l : List Writer} {w v : Writer} {i : Nat}
    (found : (l ++ [w])[i]? = some v) : l[i]? = some v ∨ i = l.length ∧ v = w := by
  rcases Nat.lt_trichotomy i l.length with before | rfl | after
  · exact .inl ((List.getElem?_append_left before).symm.trans found)
  · rw [List.getElem?_concat_length] at found
    exact .inr ⟨rfl, (Option.some.inj found).symm⟩
  · rw [List.getElem?_eq_none (by rw [List.length_append, List.length_singleton]; omega)] at found
    cases found

theorem getElem?_set_cases {l : List Writer} {w v : Writer} {i j : Nat}
    (found : (l.set i w)[j]? = some v) : j = i ∧ v = w ∨ j ≠ i ∧ l[j]? = some v := by
  rw [List.getElem?_set] at found
  split_ifs at found with same
  · exact .inl ⟨same.symm, (Option.some.inj found).symm⟩
  · exact .inr ⟨Ne.symm same, found⟩

theorem Sound.step (sound : s.Sound) (apart : s.Apart action) : (s.step action).2.Sound := by
  rcases s.step_cases action with
    ⟨name, content, rfl, stepped⟩ | stepped | ⟨id, w, event, d, stage, found, stepped, moves, drawn⟩
  · rw [stepped]
    constructor
    · intro i v listed
      rcases getElem?_concat_cases listed with old | ⟨-, rfl⟩
      · exact sound.each i v old
      · trivial
    · intro i j v u t listed listed' holds holds'
      rcases getElem?_concat_cases listed with old | ⟨-, rfl⟩
      · rcases getElem?_concat_cases listed' with old' | ⟨-, rfl⟩
        · exact sound.apart i j v u t old old' holds holds'
        · cases holds'
      · cases holds
    · intro i j v u t listed listed' holds
      rcases getElem?_concat_cases listed with old | ⟨-, rfl⟩
      · rcases getElem?_concat_cases listed' with old' | ⟨-, rfl⟩
        · exact sound.target i j v u t old old' holds
        · intro same
          exact apart v (List.mem_of_getElem? old) (holds.trans (congrArg some same.symm))
      · cases holds
  · rw [stepped]
    exact sound
  · rw [stepped]
    -- What the call that moves holds, it held before or has drawn.
    have others : ∀ (j : Nat) (v : Writer) (t : Str), j ≠ id → s.writers[j]? = some v →
        v.stage.held = some t → stage.held ≠ some t := by
      intro j v t differs old holds holds'
      rcases moves.held holds' with before | drew
      · exact differs (sound.apart j id v w t old found holds before)
      · exact (drawn apart t drew v (List.mem_of_getElem? old)).2 holds
    have targets : ∀ (j : Nat) (v : Writer) (t : Str), s.writers[j]? = some v →
        stage.held = some t → v.name ≠ t := by
      intro j v t old holds
      rcases moves.held holds with before | drew
      · exact sound.target id j w v t found old before
      · exact (drawn apart t drew v (List.mem_of_getElem? old)).1
    constructor
    · intro j v listed
      rcases getElem?_set_cases listed with ⟨-, rfl⟩ | ⟨differs, old⟩
      · exact moves.sound (sound.each id w found)
      · refine (sound.each j v old).mono fun t file holds own => ?_
        refine moves.frame (sound.each id w found) own (fun holds' => ?_) (fun drew => ?_)
          (sound.target j id v w t old found holds)
        · exact differs (sound.apart j id v w t old found holds holds')
        · exact (drawn apart t drew v (List.mem_of_getElem? old)).2 holds
    · intro i j v u t listed listed' holds holds'
      rcases getElem?_set_cases listed with ⟨rfl, rfl⟩ | ⟨differs, old⟩
      · rcases getElem?_set_cases listed' with ⟨rfl, rfl⟩ | ⟨differs', old'⟩
        · rfl
        · exact absurd holds (others j u t differs' old' holds')
      · rcases getElem?_set_cases listed' with ⟨rfl, rfl⟩ | ⟨differs', old'⟩
        · exact absurd holds' (others i v t differs old holds)
        · exact sound.apart i j v u t old old' holds holds'
    · intro i j v u t listed listed' holds
      have name : ∃ u', s.writers[j]? = some u' ∧ u.name = u'.name := by
        rcases getElem?_set_cases listed' with ⟨rfl, rfl⟩ | ⟨-, old'⟩
        · exact ⟨w, found, rfl⟩
        · exact ⟨u, old', rfl⟩
      obtain ⟨u', old', same⟩ := name
      rw [same]
      rcases getElem?_set_cases listed with ⟨rfl, rfl⟩ | ⟨-, old⟩
      · exact targets j u' t old' holds
      · exact sound.target i j v u' t old old' holds

/-! ## Runs -/

/-- What a name reads after the events. -/
def contents (name : Str) (before : Option Bytes) (events : List Event) : Option Bytes :=
  events.foldl (fun read event => event.put name read) before

variable {d : Directory Str UInt8}

theorem history_append (front : List Action) (action : Action) :
    history d (front ++ [action]) = history d front ++ [((after d front).step action).1] := by
  rw [history, Mealy.trace_append, List.map_append]
  rfl

theorem contents_append (name : Str) (before : Option Bytes) (events : List Event)
    (event : Event) :
    contents name before (events ++ [event]) = event.put name (contents name before events) :=
  List.foldl_append

/-- A name reads what it did, until something is published under it. -/
theorem contents_cases (name : Str) (before : Option Bytes) (events : List Event) :
    (∀ content, .published name content ∉ events) ∧ contents name before events = before ∨
      ∃ content, .published name content ∈ events ∧ contents name before events = some content := by
  induction events using List.reverseRecOn with
  | nil => exact .inl ⟨fun _ => List.not_mem_nil, rfl⟩
  | append_singleton events event ih =>
      rw [contents_append]
      by_cases own : ∃ content, event = .published name content
      · obtain ⟨content, rfl⟩ := own
        refine .inr ⟨content, List.mem_append_right _ (List.mem_singleton_self _), ?_⟩
        exact if_pos rfl
      · have passes : event.put name (contents name before events) =
            contents name before events := by
          cases event with
          | published other content =>
              exact if_neg fun same => own ⟨content, by rw [same]⟩
          | _ => rfl
        rw [passes]
        rcases ih with ⟨unpublished, same⟩ | ⟨content, published, same⟩
        · refine .inl ⟨fun content published => ?_, same⟩
          rcases List.mem_append.mp published with earlier | now
          · exact unpublished content earlier
          · exact own ⟨content, (List.mem_singleton.mp now).symm⟩
        · exact .inr ⟨content, List.mem_append_left _ published, same⟩

theorem sound_after {schedule : List Action}
    (apart : Mealy.AllSteps step Apart ⟨d, []⟩ schedule) : (after d schedule).Sound := by
  refine Mealy.final_invariant (fun _ (s : System) => s.Sound) ⟨?_, ?_, ?_⟩ ?_
  · intro i w listed
    cases listed
  · intro i j w v t listed
    cases listed
  · intro i j w v t listed
    cases listed
  · intro front action back split sound
    rw [split] at apart
    exact sound.step apart.of_append

/-- What a new call and every move keep, a run keeps. -/
theorem run_invariant (inv : List Event → System → Prop) (schedule : List Action)
    (init : inv [] ⟨d, []⟩)
    (call : ∀ events s name content, inv events s →
      inv (events ++ [.silent]) { s with writers := s.writers ++ [⟨name, content, .create⟩] })
    (idle : ∀ events s, inv events s → inv (events ++ [.silent]) s)
    (move : ∀ events s id w event d' stage, inv events s → s.writers[id]? = some w →
      Moves s.directory w event d' stage →
      inv (events ++ [event]) ⟨d', s.writers.set id { w with stage }⟩) :
    inv (history d schedule) (after d schedule) := by
  refine Mealy.final_invariant (fun front (s : System) => inv (history d front) s) init ?_
  intro front action back _ before
  rw [history_append]
  rcases (after d front).step_cases action with
    ⟨name, content, -, stepped⟩ | stepped | ⟨id, w, event, d', stage, found, stepped, moves, -⟩
  · rw [stepped]
    exact call _ _ name content before
  · rw [stepped]
    exact idle _ _ before
  · rw [stepped]
    exact move _ _ id w event d' stage before found moves

/-- What holds of a new call and of a call after its move, by what has happened
up to then, holds of all calls. -/
theorem writers_invariant (inv : List Event → Writer → Prop) (schedule : List Action)
    (call : ∀ events name content, inv events ⟨name, content, .create⟩)
    (later : ∀ events event w, inv events w → inv (events ++ [event]) w)
    (move : ∀ events d w event d' stage, inv events w → Moves d w event d' stage →
      inv (events ++ [event]) { w with stage }) :
    ∀ w ∈ (after d schedule).writers, inv (history d schedule) w := by
  refine run_invariant (fun events s => ∀ w ∈ s.writers, inv events w) schedule ?_ ?_ ?_ ?_
  · intro w listed
    cases listed
  · intro events s name content all w listed
    rcases List.mem_append.mp listed with old | new
    · exact later events _ w (all w old)
    · obtain rfl := List.mem_singleton.mp new
      exact call _ name content
  · intro events s all w listed
    exact later events _ w (all w listed)
  · intro events s id w event d' stage all found moves v listed
    rcases List.mem_or_eq_of_mem_set listed with old | rfl
    · exact later events _ v (all v old)
    · exact move events _ w event d' stage (all w (List.mem_of_getElem? found)) moves

/-- A call holds only what it has drawn. -/
theorem drawn_of_held (schedule : List Action) :
    ∀ w ∈ (after d schedule).writers, ∀ t, w.stage.held = some t →
      .drew t ∈ history d schedule := by
  refine writers_invariant (fun events w => ∀ t, w.stage.held = some t → .drew t ∈ events)
    schedule ?_ ?_ ?_
  · intro events name content t holds
    cases holds
  · intro events event w held t holds
    exact List.mem_append_left _ (held t holds)
  · intro events d w event d' stage held moves t holds
    rcases moves.held holds with before | rfl
    · exact List.mem_append_left _ (held t before)
    · exact List.mem_append_right _ (List.mem_singleton_self _)

/-- A name that is drawn for no temporary file reads what was last published
under it, or what it read before. -/
theorem read_after {schedule : List Action}
    (apart : Mealy.AllSteps step Apart ⟨d, []⟩ schedule) {name : Str}
    (plain : .drew name ∉ history d schedule) :
    (after d schedule).directory.read name =
      contents name (d.read name) (history d schedule) := by
  have reads : .drew name ∉ history d schedule → (after d schedule).directory.read name =
      contents name (d.read name) (history d schedule) := by
    refine Mealy.final_invariant (fun front (s : System) => .drew name ∉ history d front →
      s.directory.read name = contents name (d.read name) (history d front)) ?_ ?_
    · intro plain
      rfl
    intro front action back split before plain
    rw [split] at apart
    rw [history_append, List.mem_append, not_or, List.mem_singleton] at plain
    rw [history_append, contents_append, ← before plain.1]
    have sound : (after d front).Sound := sound_after apart.front
    rcases (after d front).step_cases action with
      ⟨other, content, rfl, stepped⟩ | stepped |
        ⟨id, w, event, d', stage, found, stepped, moves, -⟩
    · rw [stepped]
      rfl
    · rw [stepped]
      rfl
    · rw [stepped] at plain ⊢
      refine moves.read (sound.each id w found) (fun holds => plain.1 ?_) (Ne.symm plain.2)
      exact drawn_of_held front w (List.mem_of_getElem? found) name holds
  exact reads plain

/-- A call that has replaced its file has published the content. -/
theorem published_of_replaced (schedule : List Action) :
    ∀ w ∈ (after d schedule).writers, w.stage.replaced = true →
      .published w.name w.content ∈ history d schedule := by
  refine writers_invariant
    (fun events w => w.stage.replaced = true → .published w.name w.content ∈ events)
    schedule ?_ ?_ ?_
  · intro events name content done
    cases done
  · intro events event w published done
    exact List.mem_append_left _ (published done)
  · intro events d w event d' stage published moves done
    rcases moves.replaced done with before | rfl
    · exact List.mem_append_left _ (published before)
    · exact List.mem_append_right _ (List.mem_singleton_self _)

theorem exists_mem_set {l : List Writer} {id : Nat} {w w' : Writer} {p : Writer → Prop}
    (found : l[id]? = some w) (keeps : p w → p w') (held : ∃ v ∈ l, p v) :
    ∃ v ∈ l.set id w', p v := by
  obtain ⟨v, listed, holds⟩ := held
  obtain ⟨j, old⟩ := List.mem_iff_getElem?.mp listed
  by_cases same : id = j
  · subst same
    obtain rfl := Option.some.inj (found.symm.trans old)
    exact ⟨w', List.mem_set (List.getElem?_eq_some_iff.mp found).1 _, keeps holds⟩
  · exact ⟨v, List.mem_of_getElem? ((List.getElem?_set_ne same).trans old), holds⟩

/-- What has been published is the content of a call. -/
theorem exists_of_published (schedule : List Action) {name : Str} {content : Bytes}
    (published : .published name content ∈ history d schedule) :
    ∃ w ∈ (after d schedule).writers, w.name = name ∧ w.content = content := by
  have calls : .published name content ∈ history d schedule →
      ∃ w ∈ (after d schedule).writers, w.name = name ∧ w.content = content := by
    refine run_invariant (fun events s => .published name content ∈ events →
      ∃ w ∈ s.writers, w.name = name ∧ w.content = content) schedule ?_ ?_ ?_ ?_
    · intro published
      cases published
    · intro events s name content called published
      obtain ⟨w, listed, same⟩ := called (by simpa using published)
      exact ⟨w, List.mem_append_left _ listed, same⟩
    · intro events s called published
      exact called (by simpa using published)
    · intro events s id w event d' stage called found moves published
      rcases List.mem_append.mp published with earlier | now
      · exact exists_mem_set found (fun same => same) (called earlier)
      · obtain rfl := List.mem_singleton.mp now
        have listed := List.mem_set (List.getElem?_eq_some_iff.mp found).1 { w with stage }
        cases moves with
        | replace => exact ⟨_, listed, rfl, rfl⟩
  exact calls published

/-- A file that is written by no call stays as it is. -/
theorem files_after {s : System} {file : Nat} (there : file < s.directory.files.length)
    (quiet : ∀ w ∈ s.writers, ∀ t rest, w.stage ≠ .write t file rest) (schedule : List Action) :
    (Mealy.final step s schedule).directory.files[file]? = s.directory.files[file]? := by
  refine (Mealy.final_invariant (fun _ (now : System) =>
    file < now.directory.files.length ∧
      now.directory.files[file]? = s.directory.files[file]? ∧
      ∀ w ∈ now.writers, ∀ t rest, w.stage ≠ .write t file rest) ⟨there, rfl, quiet⟩ ?_).2.1
  intro front action back _ before
  obtain ⟨there, same, quiet⟩ := before
  rcases (Mealy.final step s front).step_cases action with
    ⟨name, content, -, stepped⟩ | stepped | ⟨id, w, event, d', stage, found, stepped, moves, -⟩
  · rw [stepped]
    refine ⟨there, same, fun w listed => ?_⟩
    rcases List.mem_append.mp listed with old | new
    · exact quiet w old
    · obtain rfl := List.mem_singleton.mp new
      exact nofun
  · rw [stepped]
    exact ⟨there, same, quiet⟩
  · rw [stepped]
    obtain ⟨there', same', quiet'⟩ := moves.file there (quiet w (List.mem_of_getElem? found))
    refine ⟨there', same'.trans same, fun v listed => ?_⟩
    rcases List.mem_or_eq_of_mem_set listed with old | rfl
    · exact quiet v old
    · exact quiet'

/-! ## Readers -/

/-- However calls are interleaved and wherever they break off, a file reads the
whole content of the call that replaced it last, or what it read at first; and
a call that returns has replaced its file. -/
theorem reads_published (d : Directory Str UInt8) (schedule : List Action)
    (apart : Mealy.AllSteps step Apart ⟨d, []⟩ schedule) :
    (∀ name, .drew name ∉ history d schedule →
      (after d schedule).directory.read name =
        contents name (d.read name) (history d schedule)) ∧
    (∀ name content, .published name content ∈ history d schedule →
      ∃ w ∈ (after d schedule).writers, w.name = name ∧ w.content = content) ∧
    ∀ w ∈ (after d schedule).writers, w.stage = .returned →
      .published w.name w.content ∈ history d schedule := by
  refine ⟨fun name plain => read_after apart plain,
    fun name content published => exists_of_published schedule published,
    fun w listed returned => published_of_replaced schedule w listed ?_⟩
  rw [returned]
  rfl

/-- Who has opened a file, under a name that was drawn for no temporary file,
reads what it held then, whatever is published under the name meanwhile. -/
theorem opened_stable (d : Directory Str UInt8) (front back : List Action) (name : Str)
    (file : Nat) (apart : Mealy.AllSteps step Apart ⟨d, []⟩ front)
    (plain : .drew name ∉ history d front)
    (opened : (after d front).directory.names name = some file) :
    (after d (front ++ back)).directory.files[file]? =
      (after d front).directory.files[file]? := by
  rw [after, Mealy.final_append]
  refine files_after ((after d front).directory.bound name file opened) ?_ back
  intro w listed t rest writes
  obtain ⟨i, found⟩ := List.mem_iff_getElem?.mp listed
  have sound := (sound_after apart).each i w found
  rw [writes] at sound
  obtain rfl := sound.1.only name opened
  exact plain (drawn_of_held front w listed name (by rw [writes]; rfl))

/-- A temporary file that is still there is one of a call that goes on, or that
raised or died before it came to remove it. -/
theorem temporary_left (d : Directory Str UInt8) (schedule : List Action) (t : Str)
    (drew : .drew t ∈ history d schedule)
    (target : ∀ w ∈ (after d schedule).writers, w.name ≠ t)
    (there : (after d schedule).directory.names t ≠ none) :
    ∃ w ∈ (after d schedule).writers, w.stage.temporary = some t := by
  have calls : .drew t ∈ history d schedule → (∀ w ∈ (after d schedule).writers, w.name ≠ t) →
      (after d schedule).directory.names t ≠ none →
      ∃ w ∈ (after d schedule).writers, w.stage.temporary = some t := by
    refine run_invariant (fun events s => .drew t ∈ events → (∀ w ∈ s.writers, w.name ≠ t) →
      s.directory.names t ≠ none → ∃ w ∈ s.writers, w.stage.temporary = some t)
      schedule ?_ ?_ ?_ ?_
    · intro drew
      cases drew
    · intro events s name content left drew target there
      obtain ⟨w, listed, same⟩ := left (by simpa using drew)
        (fun w listed => target w (List.mem_append_left _ listed)) there
      exact ⟨w, List.mem_append_left _ listed, same⟩
    · intro events s left drew
      exact left (by simpa using drew)
    · intro events s id w event d' stage left found moves drew target there
      have target' : ∀ v ∈ s.writers, v.name ≠ t := by
        intro v listed same
        have renamed : ∃ u ∈ s.writers.set id { w with stage }, u.name = t :=
          exists_mem_set found (fun same => same) ⟨v, listed, same⟩
        obtain ⟨u, listed, same⟩ := renamed
        exact target u listed same
      rcases moves.left there (target' w (List.mem_of_getElem? found)) with own | other
      · exact ⟨_, List.mem_set (List.getElem?_eq_some_iff.mp found).1 _, own⟩
      · obtain ⟨undrawn, there, not⟩ := other
        have earlier : .drew t ∈ events := by
          simpa [undrawn.symm] using drew
        exact exists_mem_set found (fun own => absurd own not) (left earlier target' there)
  exact calls drew target there

/-! ### Two calls, one of which dies -/

def draft : Str := "typos.toml".toList

/-- Two processes write the file; the second is through before the first, which
dies. -/
def race : List Action :=
  [.call draft [1, 2], .call draft [3, 4], .move 0 (.turn "a".toList 0),
    .move 1 (.turn "b".toList 0), .move 0 (.turn [] 0), .move 1 (.turn [] 1),
    .move 1 (.turn [] 0), .move 1 (.turn [] 0), .move 1 (.turn [] 0), .move 0 .crash]

/-- No file. -/
def vacant : Directory Str UInt8 := ⟨fun _ => none, [], nofun⟩

theorem reads_published_of_race :
    (after vacant race).directory.read draft = some [3, 4] ∧
      ∃ w ∈ (after vacant race).writers,
        w.stage = .crashed (some (temporaryName draft "a".toList)) :=
  ⟨((reads_published vacant race (by decide)).1 draft (by decide)).trans (by decide), by decide⟩

theorem opened_stable_of_race :
    (after vacant (race ++ [.call draft [5], .move 2 (.turn "c".toList 0)])).directory.files[1]? =
      some [3, 4] :=
  (opened_stable vacant race _ draft 1 (by decide) (by decide) (by decide)).trans (by decide)

theorem temporary_left_of_race :
    ∃ w ∈ (after vacant race).writers, w.stage.temporary = some (temporaryName draft "a".toList) :=
  temporary_left vacant race _ (by decide) (by decide) (by decide)

end System

end Fingermouse.TyposRolloutCache
