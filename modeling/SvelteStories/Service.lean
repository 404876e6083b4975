/-
The transform as a service to a build tool:

* `ServiceConfig`, `ServiceConfig.options`: what a caller may set, and what holds otherwise;
* `Failure`, `Report.failure`: how a report reaches a caller;
* `FileIndex`: the index of a file together with its catalog entries;
* `Service`: the hooks of a configuration, with failures in place of reports.
-/
import SvelteStories.Transform.Hooks

namespace SvelteStories

/-! ### Configuration -/

/-- What a caller may set. -/
structure ServiceConfig where
  /-- Whether files of the legacy interface are expected. -/
  legacyTemplate : Option Bool
  /-- Where the runtime helper is imported from. -/
  runtimeModule : Option String
  /-- Whether to compile for development. -/
  dev : Option Bool
deriving DecidableEq, Repr

/-- The options that a configuration stands for. -/
def ServiceConfig.options (c : ServiceConfig) : TransformOptions :=
  let d := TransformOptions.default
  ⟨c.legacyTemplate.getD d.legacyTemplate, c.runtimeModule.getD d.runtimeModule, c.dev.getD d.dev⟩

/-- The options that hold with or without a configuration. -/
def serviceOptions (config : Option ServiceConfig) : TransformOptions :=
  (config.map ServiceConfig.options).getD .default

/-! ### Failures -/

/-- Whose fault a failure is, as far as a caller is told. -/
inductive FailureStatus
  /-- The one of the file that was given. -/
  | invalidArgument
  /-- The one of the transform or of the component compiler. -/
  | general
deriving DecidableEq, Repr

/-- What a caller is told when a call fails. -/
structure Failure where
  /-- Whose fault it is. -/
  status : FailureStatus
  /-- The report as a reader sees it. -/
  message : String
deriving DecidableEq, Repr

/-- The status of faults that someone is expected to act on. -/
def Concern.failureStatus : Concern → FailureStatus
  | structural | literals | legacy => .invalidArgument
  | internal | external => .general

/-- A report as a caller is told it. -/
def Report.failure (r : Report) : Failure :=
  ⟨r.fault.concern.failureStatus, r.display⟩

/-! ### Calls -/

/-- The index of a file as a caller is given it. -/
structure FileIndex where
  /-- The id of the component. -/
  id : Option String
  /-- The title in the catalog. -/
  title : Option String
  /-- The tags of all stories. -/
  tags : List String
  /-- The catalog entries in document order. -/
  stories : List CatalogEntry
deriving DecidableEq, Repr

/-- The index of a file together with its catalog entries. -/
def Index.fileIndex (i : Index) : FileIndex :=
  ⟨i.component.id, i.component.title, i.component.tags, i.entries⟩

/-- The hooks of a configuration. -/
structure Service where
  /-- The hooks. -/
  hooks : Hooks

namespace Service

/-- The service of a configuration. -/
def ofConfig (config : Option ServiceConfig) : Service :=
  ⟨.ofOptions (serviceOptions config)⟩

/-- The text of a stories file for the component compiler; nothing for other files. -/
def before? (s : Service) (id : String) (t : List Char) : Except Failure (Option (List Char)) :=
  (s.hooks.before? id t).mapError Report.failure

/-- The stories module for a stories file; nothing for other files. -/
def after? (s : Service) (id : String) (compiled t : List Char) :
    Except Failure (Option (List Char)) :=
  ((s.hooks.after? id compiled t).map fun module => module.map Noted.value).mapError
    Report.failure

/-- The index of a stories file. -/
def index (s : Service) (filename : String) (t : List Char) : Except Failure Index :=
  (s.hooks.index filename t).mapError Report.failure

/-- The index of a stories file together with its catalog entries. -/
def fileIndex (s : Service) (filename : String) (t : List Char) : Except Failure FileIndex :=
  (s.index filename t).map Index.fileIndex

end Service

/-- The index of a stories file under a configuration, together with its catalog entries. -/
def fileIndexUnder (config : Option ServiceConfig) (source : Source) :
    Except Failure FileIndex :=
  ((indexStories source (serviceOptions config).index).map Index.fileIndex).mapError
    Report.failure

end SvelteStories
