import LogOrder.Proofs.Program.InWorld

/-!
# Where settings come from

One settings file is looked at. What else there is in the world has no say in the settings; nor has
the command line in whether that file can be loaded.

* `World.found?`: what is found in a place where a settings file may be;
* `settings?_of_found`, `settings?_of_not_found`: what settings there are then;
* **`settings_resolution`**: the place, the faults and the settings.
-/

namespace LogOrder

open Settings

/-- The settings file of a run in the world. -/
def World.settingsPath (w : World) (a : CommandLine.Arguments) : String :=
  Settings.settingsPath a (w.environment.lookup "XDG_CONFIG_HOME") (w.environment.lookup "HOME")

/-- What reading gives, if there is something of that name. A directory cannot be read. -/
def World.found? (w : World) (name : String) : Option (Except IoFault Bytes) :=
  match w.tree.open? w.working name with
  | .ok (_, .file content) => some (.ok content)
  | .ok (_, .directory) => some (.error .isDirectory)
  | .error _ => none

namespace Settings

/-- Where the settings of a run come from, when `path` is the settings file. -/
structure Resolution (w : World) (a : CommandLine.Arguments) (path : String) : Prop where
  /-- A file that the command line names is the one. -/
  of_config : ∀ name, a.config = some name → path = name
  /-- If it names none, the directory for settings has it, if one is set, -/
  of_configHome : ∀ dir, a.config = none → w.environment.lookup "XDG_CONFIG_HOME" = some dir →
    path = inside dir "logsort/config.toml"
  /-- or else the home directory, if one is set, -/
  of_home : ∀ dir, a.config = none → w.environment.lookup "XDG_CONFIG_HOME" = none →
    w.environment.lookup "HOME" = some dir → path = inside dir ".config/logsort/config.toml"
  /-- or else the working directory. -/
  of_neither : a.config = none → w.environment.lookup "XDG_CONFIG_HOME" = none →
    w.environment.lookup "HOME" = none → path = ".config/logsort/config.toml"
  /-- Nothing else in the world is looked at. -/
  alone : ∀ v : World, v.settingsPath a = path → v.found? path = w.found? path →
    v.settings? a = w.settings? a
  /-- The file has to be there if the command line names it, and to be good if it is there. -/
  fails_iff : (∃ fault, w.settings? a = .error fault) ↔
    (∃ read, w.found? path = some read ∧ Unloadable read) ∨
      (a.config ≠ none ∧ w.found? path = none)
  /-- Nothing else on the command line excuses a fault. -/
  fails_alike : ∀ (b : CommandLine.Arguments) (fault : Fault), b.config = a.config →
    (w.settings? b = .error fault ↔ w.settings? a = .error fault)
  /-- The file has a say in the order only, and only when the command line asks for none. -/
  settings_iff : ∀ s, w.settings? a = .ok s ↔ ∃ order,
    ((∃ read, w.found? path = some read ∧ Loads read order) ∨
      (a.config = none ∧ w.found? path = none ∧ order = none)) ∧
    s = { order := a.requestedOrder.getD (order.getD .chrono), input := a.logfile.getD "-",
          output := a.output, verbose := a.verbose }
  /-- Two worlds make a difference for the order at most, and for nothing when the command line
  asks for an order. -/
  order_only : ∀ (v : World) (s t : Settings), w.settings? a = .ok s → v.settings? a = .ok t →
    t = { s with order := t.order } ∧ (a.requestedOrder ≠ none → t = s)

variable {w v : World} {a b : CommandLine.Arguments} {s : Settings}

/-! ## The place -/

theorem inside_append {first : String} (hfirst : first ≠ "") (lead rest : String) :
    inside (lead ++ first) rest = lead ++ inside first rest := by
  have hchars : first.toList ≠ [] := by simpa using hfirst
  have hlast : (lead ++ first).toList.getLast? = first.toList.getLast? := by
    rw [String.toList_append, List.getLast?_append_of_ne_nil _ hchars]
  have hempty : first.isEmpty = false := by simpa using hfirst
  have hempty' : (lead ++ first).isEmpty = false := by simp [hfirst]
  rw [inside, inside, hlast, hempty, hempty']
  split
  · contradiction
  · split <;> simp only [String.append_assoc]

/-- A name goes into a directory part by part. -/
theorem inside_inside {dir first : String} (hfirst : first ≠ "") (rest : String) :
    inside (inside dir first) rest = inside dir (inside first rest) := by
  rw [inside.eq_def dir first, inside.eq_def dir (inside first rest)]
  split
  · rfl
  · split
    · exact inside_append hfirst dir rest
    · exact inside_append hfirst (dir ++ "/") rest

theorem userPath_of_configHome (dir : String) (home : Option String) :
    userPath (some dir) home = inside dir "logsort/config.toml" := by
  rw [userPath, inside_inside (by decide)]
  rfl

theorem userPath_of_home (dir : String) :
    userPath none (some dir) = inside dir ".config/logsort/config.toml" := by
  rw [userPath, inside_inside (by decide), inside_inside (by decide)]
  rfl

/-! ## The file -/

theorem settings?_of_found {read : Except IoFault Bytes}
    (h : w.found? (w.settingsPath a) = some read) :
    w.settings? a = (load (w.settingsPath a) read).map (merge a) := by
  unfold World.found? at h
  rw [World.settings?, Program.run_resolve_eq]
  change (if (w.tree.open? w.working (w.settingsPath a)).isOk then
    (load (w.settingsPath a) (w.readFile (w.settingsPath a))).map (merge a) else _) = _
  unfold World.readFile
  split at h
  · next hopen =>
    cases h
    rw [hopen]
    rfl
  · next hopen =>
    cases h
    rw [hopen]
    rfl
  · cases h

theorem settings?_of_not_found (h : w.found? (w.settingsPath a) = none) : w.settings? a =
    if a.config.isSome then .error (.config s!"config file {w.settingsPath a} does not exist")
    else .ok (merge a {}) := by
  unfold World.found? at h
  rw [World.settings?, Program.run_resolve_eq]
  change (if (w.tree.open? w.working (w.settingsPath a)).isOk then _ else _) = _
  split at h
  · cases h
  · cases h
  · next hopen =>
    rw [hopen]
    rfl

/-- Whether the file can be loaded is up to the file and to where its name comes from. -/
theorem settings?_eq_error_congr {fault : Fault} (h : b.config = a.config) :
    w.settings? b = .error fault ↔ w.settings? a = .error fault := by
  have hpath : w.settingsPath b = w.settingsPath a := by
    rw [World.settingsPath, World.settingsPath, Settings.settingsPath, Settings.settingsPath, h]
  cases hfound : w.found? (w.settingsPath a) with
  | none =>
    rw [settings?_of_not_found hfound, settings?_of_not_found (hpath ▸ hfound), hpath, h]
    split <;> simp
  | some read =>
    rw [settings?_of_found hfound, settings?_of_found (hpath ▸ hfound), map_eq_error_iff,
      map_eq_error_iff, hpath]

theorem exists_settings?_eq_error_iff : (∃ fault, w.settings? a = .error fault) ↔
    (∃ read, w.found? (w.settingsPath a) = some read ∧ Unloadable read) ∨
      (a.config ≠ none ∧ w.found? (w.settingsPath a) = none) := by
  cases hfound : w.found? (w.settingsPath a) with
  | none =>
    rw [settings?_of_not_found hfound]
    cases a.config <;> simp
  | some read =>
    rw [settings?_of_found hfound]
    simp only [map_eq_error_iff, exists_load_eq_error_iff]
    simp

theorem settings?_eq_ok_iff : w.settings? a = .ok s ↔ ∃ order,
    ((∃ read, w.found? (w.settingsPath a) = some read ∧ Loads read order) ∨
      (a.config = none ∧ w.found? (w.settingsPath a) = none ∧ order = none)) ∧
    s = merge a { order } := by
  cases hfound : w.found? (w.settingsPath a) with
  | none =>
    rw [settings?_of_not_found hfound]
    cases a.config <;> simp [eq_comm]
  | some read =>
    rw [settings?_of_found hfound, map_eq_ok_iff]
    constructor
    · rintro ⟨file, hload, rfl⟩
      exact ⟨file.order, .inl ⟨read, rfl, load_eq_ok_iff.mp hload⟩, rfl⟩
    · rintro ⟨order, ⟨found, hread, hloads⟩ | ⟨-, hnone, -⟩, rfl⟩
      · cases hread
        exact ⟨{ order }, load_eq_ok_iff.mpr hloads, rfl⟩
      · cases hnone

/-- What is found in the one place decides. -/
theorem settings?_congr (hpath : v.settingsPath a = w.settingsPath a)
    (hfound : v.found? (w.settingsPath a) = w.found? (w.settingsPath a)) :
    v.settings? a = w.settings? a := by
  cases h : w.found? (w.settingsPath a) with
  | none =>
    rw [settings?_of_not_found h, settings?_of_not_found (by rw [hpath, hfound, h]), hpath]
  | some read =>
    rw [settings?_of_found h, settings?_of_found (by rw [hpath, hfound, h]), hpath]

/-- **One settings file is looked at**, and the command line and the two variables say which. The
run fails if something is there that cannot be loaded, or if nothing is there and the command line
names it; no switch excuses this. Otherwise the order is the one that the command line asks for, or
else the one in the file, or else by time; and the command line alone says all the rest. -/
theorem settings_resolution (w : World) (a : CommandLine.Arguments) :
    Resolution w a (w.settingsPath a) where
  of_config name h := by rw [World.settingsPath, Settings.settingsPath, h]
  of_configHome dir h hdir := by
    rw [World.settingsPath, Settings.settingsPath, h, hdir]
    exact userPath_of_configHome dir _
  of_home dir h hnone hdir := by
    rw [World.settingsPath, Settings.settingsPath, h, hnone, hdir]
    exact userPath_of_home dir
  of_neither h hnone hnone' := by
    rw [World.settingsPath, Settings.settingsPath, h, hnone, hnone']
    rfl
  alone v hpath hfound := settings?_congr hpath hfound
  fails_iff := exists_settings?_eq_error_iff
  fails_alike b fault h := settings?_eq_error_congr h
  settings_iff s := settings?_eq_ok_iff
  order_only v s t hs ht := by
    obtain ⟨order, -, rfl⟩ := settings?_eq_ok_iff.mp hs
    obtain ⟨other, -, rfl⟩ := settings?_eq_ok_iff.mp ht
    refine ⟨rfl, fun horder => ?_⟩
    obtain ⟨policy, hpolicy⟩ := Option.ne_none_iff_exists'.mp horder
    rw [merge, merge, hpolicy]
    rfl

/-- A file that is broken counts although the order is asked for, but not from the home directory
when another directory for settings is named. -/
theorem settings_resolution_broken : ∃ (w v : World) (a : CommandLine.Arguments),
    a.requestedOrder = some .thread ∧ w.settingsPath a = "/h/.config/logsort/config.toml" ∧
    (∃ fault, w.settings? a = .error fault) ∧
    v.tree = w.tree ∧ v.settingsPath a = "/x/logsort/config.toml" ∧
    v.settings? a = .ok { order := .thread, input := "a.log" } := by
  obtain ⟨w, v, hhome, hbroken, htree, hpath, hnone⟩ : ∃ w v : World,
      w.settingsPath { logfile := some "a.log", thread := true } =
        "/h/.config/logsort/config.toml" ∧
      w.found? "/h/.config/logsort/config.toml" = some (.ok (Bytes.ofString "order = [")) ∧
      v.tree = w.tree ∧
      v.settingsPath { logfile := some "a.log", thread := true } = "/x/logsort/config.toml" ∧
      v.found? "/x/logsort/config.toml" = none :=
    let tree : FileTree := { nodes := [(["h"], .directory), (["h", ".config"], .directory),
      (["h", ".config", "logsort"], .directory),
      (["h", ".config", "logsort", "config.toml"], .file (Bytes.ofString "order = ["))] }
    ⟨{ tree, environment := [("HOME", "/h")] },
      { tree, environment := [("HOME", "/h"), ("XDG_CONFIG_HOME", "/x")] },
      by decide, by decide, rfl, by decide, by decide⟩
  have hw := settings_resolution w { logfile := some "a.log", thread := true }
  have hv := settings_resolution v { logfile := some "a.log", thread := true }
  rw [hhome] at hw
  rw [hpath] at hv
  have hmalformed : Toml.document? (Bytes.ofString "order = [") = none := by decide
  exact ⟨w, v, _, rfl, hhome, hw.fails_iff.mpr (.inl ⟨_, hbroken, .malformed hmalformed⟩), htree,
    hpath, (hv.settings_iff _).mpr ⟨none, .inr ⟨rfl, hnone, rfl⟩, rfl⟩⟩

end Settings

end LogOrder
