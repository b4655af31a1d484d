import Mathlib.Data.List.Forall2
import RubyLens.Proofs.Settings.Layers
import RubyLens.Settings.Load

/-!
Loading settings from layers that may be broken. Above the defaults there are three places where a
layer may be, which are looked at in different ways, but what comes of each is the same
(`Reported`): a layer that is there and can be read is taken and nothing is complained of, one that
is broken is complained of once and not taken, and one that is not there leaves no trace. Nothing
here depends on how layers are written: decoders are given, and may read whatever they like.

* `reported_userLayer`, `reported_projectLayer`, `reported_clientLayer`: the three places.
* `settings_load`: the settings depend on the layers that are taken and on nothing else.

Main statement: `load_isolated`.
-/

namespace RubyLens.Settings

open Json (Value)

/-! ### Places for layers -/

/-- What there is in a place for a layer: nothing, something that cannot be read or is no layer,
with the warning that it deserves, or a layer. -/
inductive Candidate where
  | absent
  | broken (warning : String)
  | readable (layer : Layer)
deriving DecidableEq

namespace Candidate

def layer? : Candidate → Option Layer
  | readable layer => some layer
  | _ => none

def warning? : Candidate → Option String
  | broken warning => some warning
  | _ => none

/-- With nothing in place of what is broken. -/
def isolated : Candidate → Candidate
  | broken _ => absent
  | c => c

theorem layer?_isolated (c : Candidate) : c.isolated.layer? = c.layer? := by cases c <;> rfl

/-- What a decoder makes of something that is there, and how its word on a failure is passed on. -/
def decoded (undecoded : String → String) : Except String Layer → Candidate
  | .ok layer => readable layer
  | .error e => broken (undecoded e)

section Places

variable (fs : Files) (d : Decoders)

/-- A file that is there, with the warnings if it cannot be read, and if it is no layer. -/
def read (path : Path) (unread : OsError → String) (undecoded : String → String) : Candidate :=
  match fs.readText path with
  | .error e => broken (unread e)
  | .ok text => decoded undecoded (d.file text)

/-- A file that may be there. -/
def ofFile (path : Path) (unread : OsError → String) (undecoded : String → String) : Candidate :=
  if !fs.pathExists path then absent else read fs d path unread undecoded

def user (s : Option Surroundings) : Candidate :=
  s.elim absent fun s =>
    let failed (f : Failure) : String := "Failed to load user config: " ++ f.message
    ofFile fs d s.userConfigPath (fun e => failed (.io e.message))
      fun e => failed (.config (s.userConfigPath ++ ": " ++ e))

def project (root : Option Path) : Candidate :=
  root.elim absent fun root =>
    ofFile fs d (Path.join root configFileName)
      (fun e => "Failed to read " ++ configFileName ++ ": " ++ e.message)
      fun e => "Failed to parse " ++ configFileName ++ ": " ++ e

/-- What a client sends. Null is nothing. -/
def client : Option (Origin × Value) → Candidate
  | none => absent
  | some (_, .null) => absent
  | some (origin, v) =>
    decoded (fun e => "Failed to parse " ++ origin.description ++ ": " ++ e) (d.client v)

/-- All places above the defaults, the lowest first. -/
def all (s : Option Surroundings) (root : Option Path) (sent : Option (Origin × Value)) :
    List Candidate := [user fs d s, project fs d root, client d sent]

end Places

end Candidate

/-! ### What comes of a place -/

def warnings (events : List Event) : List Event := events.filter (·.kind = .warning)

/-- Of a candidate the layer is taken, if it is one, and there is one warning if it is broken. -/
structure Reported (c : Candidate) (found : Found) : Prop where
  layer : found.1 = c.layer?
  warned : warnings found.2 = c.warning?.toList.map (Event.mk .warning)

theorem Reported.absent : Reported .absent (none, []) := ⟨rfl, rfl⟩

theorem Reported.readable (layer : Layer) (message : String) :
    Reported (.readable layer) (some layer, [⟨.info, message⟩]) := ⟨rfl, rfl⟩

theorem Reported.broken (message : String) : Reported (.broken message) (notTaken message) :=
  ⟨rfl, rfl⟩

/-- What is told besides is no warning. -/
theorem Reported.inform {c : Candidate} {found : Found} (h : Reported c found) (message : String) :
    Reported c (found.1, ⟨.info, message⟩ :: found.2) := ⟨h.layer, h.warned⟩

section Places

variable (fs : Files) (d : Decoders) (s : Option Surroundings) (root : Option Path)
  (sent : Option (Origin × Value))

/-- Reading a file that is there. -/
theorem Reported.read (path : Path) (unread : OsError → String) (undecoded : String → String)
    (message : String) :
    Reported (.read fs d path unread undecoded)
      (match fs.readText path with
      | .error e => notTaken (unread e)
      | .ok text =>
        match d.file text with
        | .ok layer => (some layer, [⟨.info, message⟩])
        | .error e => notTaken (undecoded e)) := by
  rw [Candidate.read]
  cases fs.readText path with
  | error e => exact .broken (unread e)
  | ok text =>
    dsimp only
    cases d.file text with
    | error e => exact .broken (undecoded e)
    | ok layer => exact .readable layer message

theorem reported_userLayer : Reported (.user fs d s) (userLayer fs d s) := by
  cases s with
  | none => exact .absent
  | some s =>
    rw [Candidate.user, Option.elim_some, Candidate.ofFile, userLayer]
    dsimp only
    split
    · exact .absent
    · exact .read fs d _ _ _ _

theorem reported_projectLayer : Reported (.project fs d root) (projectLayer fs d root) := by
  cases root with
  | none => exact .absent
  | some root =>
    rw [Candidate.project, Option.elim_some, Candidate.ofFile, projectLayer]
    dsimp only
    split
    · exact .absent
    · -- that a file was found is told before it is read, and is no warning
      exact (Reported.read fs d _ _ _ _).inform _

theorem reported_clientLayer : Reported (.client d sent) (clientLayer d sent) := by
  fun_cases clientLayer d sent with
  | case1 => exact .absent
  | case2 => exact .absent
  | case3 origin v hv layer h =>
    rw [Candidate.client, h]
    · exact .readable layer _
    · exact hv
  | case4 origin v hv e h =>
    rw [Candidate.client, h]
    · exact .broken _
    · exact hv

/-! ### Loading -/

/-- What is found in all places, the lowest first. -/
def places : List Found := [userLayer fs d s, projectLayer fs d root, clientLayer d sent]

theorem reported_places :
    List.Forall₂ Reported (Candidate.all fs d s root sent) (places fs d s root sent) :=
  .cons (reported_userLayer fs d s)
    (.cons (reported_projectLayer fs d root) (.cons (reported_clientLayer d sent) .nil))

end Places

section Reported

variable {cs : List Candidate} {found : List Found} (h : List.Forall₂ Reported cs found)

include h

theorem layers_of_reported : found.map Prod.fst = cs.map Candidate.layer? := by
  induction h with
  | nil => rfl
  | cons hfirst _ ih => rw [List.map_cons, List.map_cons, hfirst.layer, ih]

theorem warnings_of_reported : warnings (found.flatMap Prod.snd) =
    (cs.filterMap Candidate.warning?).map (Event.mk .warning) := by
  induction h with
  | nil => rfl
  | @cons c f cs found hfirst _ ih =>
    have hevents : warnings ((f :: found).flatMap Prod.snd) =
        warnings f.2 ++ warnings (found.flatMap Prod.snd) := by
      rw [List.flatMap_cons, warnings, List.filter_append, warnings, warnings]
    have hwarnings : (c :: cs).filterMap Candidate.warning? =
        c.warning?.toList ++ cs.filterMap Candidate.warning? := by
      rw [List.filterMap_cons]
      cases c.warning? <;> rfl
    rw [hevents, hwarnings, List.map_append, hfirst.warned, ih]

end Reported

section Load

variable (fs : Files) (d : Decoders) (s : Option Surroundings) (root : Option Path)
  (sent : Option (Origin × Value))

/-- There are always settings, since the defaults are a layer. -/
theorem merged_load : (Layer.mergeAll [some .defaults, (userLayer fs d s).1,
    (projectLayer fs d root).1, (clientLayer d sent).1]).map Layer.resolve =
      some (load fs s root sent d).1 := by
  rw [load]
  cases h : Layer.mergeAll [some .defaults, (userLayer fs d s).1, (projectLayer fs d root).1,
      (clientLayer d sent).1] with
  | none => exact absurd (Layer.mergeAll_eq_none_iff.1 h _ List.mem_cons_self) nofun
  | some merged => rfl

/-- **The settings depend on the layers that are taken.** -/
theorem settings_load : some (load fs s root sent d).1 =
    (Layer.mergeAll (some .defaults ::
      (Candidate.all fs d s root sent).map Candidate.layer?)).map Layer.resolve := by
  rw [← layers_of_reported (reported_places fs d s root sent), ← merged_load]
  rfl

theorem events_load :
    (load fs s root sent d).2 = (places fs d s root sent).flatMap Prod.snd := by
  simp [load, places]

/-! ### Main statement -/

/-- **Broken layers are isolated.** However layers are written and whatever there is in the places
for them, merging what comes of them gives settings, and they are those of the defaults and of the
layers that are there and can be read, in their order. What is broken is told in one warning each, in
the same order, and nothing else is a warning; for the settings it counts as what is not there. -/
theorem load_isolated :
    (Layer.mergeAll [some .defaults, (userLayer fs d s).1, (projectLayer fs d root).1,
      (clientLayer d sent).1]).map Layer.resolve = some (load fs s root sent d).1 ∧
    some (load fs s root sent d).1 = (Layer.mergeAll (some .defaults ::
      ((Candidate.all fs d s root sent).filterMap Candidate.layer?).map some)).map
        Layer.resolve ∧
    warnings (load fs s root sent d).2 =
      ((Candidate.all fs d s root sent).filterMap Candidate.warning?).map (Event.mk .warning) ∧
    ∀ fs' d' s' root' sent',
      Candidate.all fs' d' s' root' sent' =
        (Candidate.all fs d s root sent).map Candidate.isolated →
      (load fs' s' root' sent' d').1 = (load fs s root sent d).1 := by
  refine ⟨merged_load fs d s root sent, ?_, ?_, fun fs' d' s' root' sent' hisolated => ?_⟩
  · rw [settings_load, Layer.mergeAll_cons, Layer.mergeAll_cons, Layer.mergeAll_filterMap]
  · rw [events_load]
    exact warnings_of_reported (reported_places fs d s root sent)
  · have hlayers : (Candidate.all fs' d' s' root' sent').map Candidate.layer? =
        (Candidate.all fs d s root sent).map Candidate.layer? := by
      rw [hisolated, List.map_map]
      exact List.map_congr_left fun c _ => c.layer?_isolated
    refine Option.some.inj ?_
    rw [settings_load, settings_load, hlayers]

end Load

/-- A directory in place of the user's file, and a project file that is no table: two warnings, and
what the client turns off is off, as if there were no files. -/
theorem load_isolated_noFiles :
    let d : Decoders := .standard
    let s : Surroundings := ⟨some "/c", "", "/"⟩
    let fs : Files := ⟨[], [(["c", "ruby-light", "ruby-light.toml"], none),
      (["p", "ruby-light.toml"], some [0x78])]⟩
    let sent : Option (Origin × Value) :=
      some (.clientConfiguration, .record [("diagnostics", .record [("enabled", .bool false)])])
    Candidate.all ⟨[], []⟩ d s (some "/p") sent =
      (Candidate.all fs d s (some "/p") sent).map Candidate.isolated ∧
    (load ⟨[], []⟩ s (some "/p") sent d).1 = (load fs s (some "/p") sent d).1 ∧
    (load fs s (some "/p") sent d).1 = { Layer.defaults.resolve with diagnostics := false } ∧
    (warnings (load fs s (some "/p") sent d).2).length = 2 := by
  intro d s fs sent
  have hisolated : Candidate.all ⟨[], []⟩ d s (some "/p") sent =
      (Candidate.all fs d s (some "/p") sent).map Candidate.isolated := by decide
  exact ⟨hisolated, (load_isolated fs d s (some "/p") sent).2.2.2 _ _ _ _ _ hisolated, by decide,
    by decide⟩

end RubyLens.Settings
