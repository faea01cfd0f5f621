import Mathlib
import SessionRelay.Proofs.Config.Decoding
import SessionRelay.Proofs.Config.Overrides

/-!
Settings from a file. Its document is merged into that of the defaults, so that each setting is as
the file has it, and where the file says nothing about it as it is by default; only an override of
the command line goes before the file.
-/

namespace SessionRelay.Config

open Toml (Value)
open Toml.Value (Fills MergesAt)

theorem Override.ordered_of_applyAll {os : List Override} {root root' : Value}
    (ordered : root.Ordered) (applied : applyAll os root = .ok root') : root'.Ordered := by
  induction os generalizing root with
  | nil =>
    cases applied
    exact ordered
  | cons o os ih =>
    obtain ⟨v, reads, rest⟩ := applyAll_cons.mp applied
    obtain ⟨old, -, leaf, same⟩ := reads.old
    exact ih (ordered.putAt (.plain (same ▸ leaf)) o.path) rest

namespace Settings

variable {root document v default : Value} {arguments : List String} {path : List String}
  {s : Settings}

/-- The path leads to a setting, and not to a section. -/
def IsSetting (path : List String) : Prop :=
  ∃ default, standard.toToml.at? path = some default ∧ default.kind ≠ .table

theorem ordered_standard : standard.toToml.Ordered := Value.ordered_of_read? standard.toToml rfl

/-- The defaults are spelled out: reading them gives them again. -/
theorem spelled_of_standard (found : standard.toToml.at? path = some default)
    (leaf : default.kind ≠ .table) : default.spelled = default := by
  have fills : Fills standard.toToml standard.toToml standard.toToml :=
    fills_ofToml ordered_standard rfl
  have again := fills path default found leaf (Value.not_cuts_of_at? found)
  rw [found] at again
  exact (Option.some.inj again).symm

theorem eq_of_checked {s' : Settings} (checked : s.checked = .ok s') : s' = s := by
  grind [Settings.checked]

theorem of_finish (finished : finish root arguments = .ok s) :
    ∃ os root', Override.readAll arguments = .ok os ∧ Override.applyAll os root = .ok root' ∧
      ofToml root' = .ok s := by
  unfold finish at finished
  split at finished
  · cases finished
  · next os given =>
    split at finished
    · cases finished
    · next root' applied =>
      split at finished
      · cases finished
      · next s' read =>
        cases eq_of_checked finished
        exact ⟨os, root', given, applied, read⟩

/-- A setting is as the document has it, if no override names it. -/
theorem at?_of_finish (ordered : root.Ordered) (finished : finish root arguments = .ok s) :
    ∃ os, Override.readAll arguments = .ok os ∧
      ∀ path v, IsSetting path → (∀ o ∈ os, ¬ path <+: o.path) → root.at? path = some v →
        s.toToml.at? path = some v.spelled := by
  obtain ⟨os, root', given, applied, read⟩ := of_finish finished
  refine ⟨os, given, ?_⟩
  rintro path v ⟨default, known, leaf⟩ unnamed found
  have found' : root'.at? path = some v := (Override.at?_applyAll applied unnamed).trans found
  have fills := fills_ofToml (Override.ordered_of_applyAll ordered applied) read
  rw [fills path default known leaf (Value.not_cuts_of_at? found'), found']
  rfl

theorem documentOver_eq_ok {file content : String} :
    documentOver file content = .ok root ↔
      ∃ document, Value.ofDocument? content = some document ∧
        root = standard.toToml.merged document := by
  unfold documentOver
  cases Value.ofDocument? content with
  | none => simp
  | some document => simp [eq_comm]

theorem of_load {read : String → Except String String} {file : String}
    (loaded : load read ⟨some file, arguments⟩ = .ok s) :
    ∃ content document, read file = .ok content ∧ Value.ofDocument? content = some document ∧
      finish (standard.toToml.merged document) arguments = .ok s := by
  simp only [load] at loaded
  split at loaded
  · cases loaded
  · next content found =>
    split at loaded
    · cases loaded
    · next root made =>
      obtain ⟨document, written, rfl⟩ := documentOver_eq_ok.mp made
      exact ⟨content, document, found, written, loaded⟩

/-- What the file says about a setting stands in the document that is read. -/
theorem at?_merged_of_given (ordered : document.Ordered) (setting : IsSetting path)
    (given : document.at? path = some v) :
    (standard.toToml.merged document).at? path = some v := by
  obtain ⟨default, known, leaf⟩ := setting
  apply (Value.mergesAt_merged ordered standard.toToml path).added v given
  rw [Value.kindAt?_of_at? known]
  exact fun table => leaf (Option.some.inj table)

end Settings

/-- A document merged into another one has at each path what comes in there, if that is no table or
no table was there, and what was there before, if nothing comes in at the path and no value that is
no table comes in above it. It has nothing else, and no other document is like that, so merging the
same document once more changes nothing. In particular any file that is a document goes over the
defaults, and the settings loaded from it are as the file has them, or by default where it does not
have them, except for those that the command line names. -/
theorem merged_path_by_path :
    (∀ base incoming : Value, incoming.Ordered →
      ∀ path, MergesAt base incoming (base.merged incoming) path) ∧
    (∀ base incoming : Value, base.Ordered → incoming.Ordered →
      (base.merged incoming).Ordered ∧
      (∀ whole : Value, whole.Ordered → (∀ path, MergesAt base incoming whole path) →
        whole = base.merged incoming) ∧
      (base.merged incoming).merged incoming = base.merged incoming) ∧
    (∀ (file content : String) (document : Value), Value.ofDocument? content = some document →
      ∃ root, Settings.documentOver file content = .ok root ∧
        (∀ path, MergesAt Settings.standard.toToml document root path) ∧
        root.merged document = root) ∧
    ∀ (read : String → Except String String) (file : String) (arguments : List String)
      (s : Settings), Settings.load read ⟨some file, arguments⟩ = .ok s →
      ∃ content document os, read file = .ok content ∧
        Value.ofDocument? content = some document ∧ Override.readAll arguments = .ok os ∧
        ∀ path, Settings.IsSetting path → (∀ o ∈ os, ¬ path <+: o.path) →
          (∀ v, document.at? path = some v → s.toToml.at? path = some v.spelled) ∧
          (document.at? path = none → ¬ document.Cuts path →
            s.toToml.at? path = Settings.standard.toToml.at? path) := by
  refine ⟨?_, ?_, ?_, ?_⟩
  · intro base incoming comes path
    exact Value.mergesAt_merged comes base path
  · intro base incoming stands comes
    refine ⟨comes.merged stands, ?_, Value.merged_merged comes stands⟩
    intro whole ordered merges
    exact Value.eq_merged comes stands ordered merges
  · intro file content document written
    have ordered := Value.ordered_of_ofDocument? written
    exact ⟨_, Settings.documentOver_eq_ok.mpr ⟨document, written, rfl⟩,
      Value.mergesAt_merged ordered _, Value.merged_merged ordered Settings.ordered_standard⟩
  · intro read file arguments s loaded
    obtain ⟨content, document, found, written, finished⟩ := Settings.of_load loaded
    have ordered := Value.ordered_of_ofDocument? written
    obtain ⟨os, given, settled⟩ :=
      Settings.at?_of_finish (ordered.merged Settings.ordered_standard) finished
    refine ⟨content, document, os, found, written, given, ?_⟩
    intro path setting unnamed
    constructor
    · intro v here
      exact settled path v setting unnamed (Settings.at?_merged_of_given ordered setting here)
    · intro absent uncut
      obtain ⟨default, known, leaf⟩ := setting
      have kept := (Value.mergesAt_merged ordered _ path).kept default known absent uncut
      rw [settled path default ⟨default, known, leaf⟩ unnamed kept, known,
        Settings.spelled_of_standard known leaf]

/-- One section as an array, one setting of two others. -/
def partialFile : String :=
  "broker = [500]\n\n[server]\nport = 6000\n\n[logging]\nlevel = \"debug\"\n"

def partialDocument : Value :=
  .table [
    ("broker", .array [.integer 500]),
    ("logging", .table [("level", .string "debug")]),
    ("server", .table [("port", .integer 6000)])]

theorem partialFile_written : Value.ofDocument? partialFile = some partialDocument := by cbv

/-- The array takes the place of a section or gives way to one, the settings of the other sections
stand side by side, and the command line has nothing to do with them. -/
theorem partial_file_settles :
    (Settings.standard.toToml.Ordered ∧
      (partialDocument.merged Settings.standard.toToml).at? ["broker", "drain_timeout_ms"] =
        some (.integer 3000)) ∧
    (partialDocument.Ordered ∧
      (Settings.standard.toToml.merged partialDocument).merged partialDocument =
        Settings.standard.toToml.merged partialDocument) ∧
    (∃ root, Settings.documentOver "relay.toml" partialFile = .ok root ∧
      root.at? ["broker"] = some (.array [.integer 500]) ∧
      root.at? ["broker", "drain_timeout_ms"] = none) ∧
    ∃ s, Settings.load (fun _ => .ok partialFile)
        ⟨some "relay.toml", ["--server.host", "::1"]⟩ = .ok s ∧
      s.toToml.at? ["server", "port"] = some (.integer 6000) ∧
      s.toToml.at? ["logging", "human_friendly"] = some (.boolean false) := by
  obtain ⟨byPath, once, files, settings⟩ := merged_path_by_path
  have ordered := Value.ordered_of_ofDocument? partialFile_written
  refine ⟨⟨Settings.ordered_standard, ?_⟩, ⟨ordered, ?_⟩, ?_, ?_⟩
  · exact (byPath _ _ Settings.ordered_standard _).replaced _ rfl nofun
  · exact (once _ _ Settings.ordered_standard ordered).2.2
  · obtain ⟨root, made, merges, -⟩ := files "relay.toml" _ _ partialFile_written
    refine ⟨root, made, (merges _).replaced _ rfl nofun, ?_⟩
    have cut : partialDocument.Cuts ["broker", "drain_timeout_ms"] :=
      ⟨["broker"], _, ⟨["drain_timeout_ms"], rfl⟩, nofun, rfl, nofun⟩
    cases found : root.at? ["broker", "drain_timeout_ms"] with
    | none => rfl
    | some v => exact absurd cut ((merges _).nothing_else v found rfl).2
  · have loaded : ∃ s, Settings.load (fun _ => .ok partialFile)
        ⟨some "relay.toml", ["--server.host", "::1"]⟩ = .ok s := by
      simp only [Settings.load, Settings.documentOver, partialFile_written]
      exact ⟨_, rfl⟩
    obtain ⟨s, loaded⟩ := loaded
    obtain ⟨content, document, os, read, written, given, settled⟩ := settings _ _ _ _ loaded
    cases read
    cases partialFile_written.symm.trans written
    cases (show Except.ok [⟨"server.host", "::1"⟩] = Except.ok os from given)
    refine ⟨s, loaded, ?_, ?_⟩
    · have set := settled ["server", "port"] ⟨.integer 5554, rfl, nofun⟩ (by decide)
      exact set.1 _ rfl
    · have kept := settled ["logging", "human_friendly"] ⟨.boolean false, rfl, nofun⟩ (by decide)
      have uncut : ¬ partialDocument.Cuts ["logging", "human_friendly"] := by
        simp [Value.cuts_cons, partialDocument, KeyTable.value?, Value.kind]
      exact kept.2 rfl uncut

end SessionRelay.Config
