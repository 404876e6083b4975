/-
Options of the indexer and of the transform, and the files they apply to.
-/

namespace SvelteStories

/-- Where the runtime helper is imported from unless an option says otherwise. -/
def defaultRuntimeModule : String :=
  "@storybook/addon-svelte-csf/internal/create-runtime-stories"

/-- Options of the indexer. -/
structure IndexOptions where
  /-- Whether files of the legacy interface are expected. -/
  legacyTemplate : Bool
deriving DecidableEq, Repr

/-- Options of the transform. -/
structure TransformOptions where
  /-- Whether files of the legacy interface are expected. -/
  legacyTemplate : Bool
  /-- Where the runtime helper is imported from. -/
  runtimeModule : String
  /-- Whether to compile for development. -/
  dev : Bool
deriving DecidableEq, Repr

/-- The options that hold where none are given. -/
def TransformOptions.default : TransformOptions :=
  ⟨false, defaultRuntimeModule, false⟩

/-- The indexer's part of the options. -/
def TransformOptions.index (o : TransformOptions) : IndexOptions :=
  ⟨o.legacyTemplate⟩

/-- Whether an id names a stories file; what follows a question mark does not count. -/
def namesStoriesFile (id : String) : Bool :=
  ".stories.svelte".toList.isSuffixOf (id.toList.takeWhile (· != '?'))

end SvelteStories
