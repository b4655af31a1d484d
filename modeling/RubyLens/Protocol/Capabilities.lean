import RubyLens.Protocol.Shape

/-!
What a client tells about its abilities. The server asks for few of them, but all that the protocol
knows have to be told in the right way.
-/

namespace RubyLens.Capabilities

open Json (Value)
open RecordField (required optional defaulted)
open Shape (any flag text nat32 int32 word either nullable listOf record)

/-! ### Parts that occur more than once -/

/-- The ability to be asked later for something. -/
def dynamic : RecordField := optional "dynamicRegistration" flag

def dynamicOnly : Shape := record [dynamic]

def refresh : Shape := record [optional "refreshSupport" flag]

/-- The forms of a text that is meant to be shown. -/
def markup : Shape := listOf (word ["plaintext", "markdown"])

/-- The numbers of things that are known. -/
def numbers : Shape := record [optional "valueSet" (listOf int32)]

/-- The tags that are known. Some clients just say whether there are any. -/
def tags : RecordField :=
  defaulted "tagSupport"
    (nullable (either flag (record [required "valueSet" (listOf int32)])))

/-- The properties that can be asked for later. -/
def properties : Shape := record [required "properties" (listOf text)]

/-! ### The workspace -/

def workspaceEdit : Shape :=
  record [
    optional "documentChanges" flag,
    optional "resourceOperations" (listOf (word ["create", "rename", "delete"])),
    optional "failureHandling" (word ["abort", "transactional", "textOnlyTransactional", "undo"]),
    optional "normalizesLineEndings" flag,
    optional "changeAnnotationSupport" (record [optional "groupsOnLabel" flag])]

def workspaceSymbol : Shape :=
  record [dynamic, optional "symbolKind" numbers, tags, optional "resolveSupport" properties]

def fileOperations : Shape :=
  record [dynamic, optional "didCreate" flag, optional "willCreate" flag, optional "didRename" flag,
    optional "willRename" flag, optional "didDelete" flag, optional "willDelete" flag]

/-- Abilities around the workspace. -/
def workspace : List RecordField := [
  optional "applyEdit" flag,
  optional "workspaceEdit" workspaceEdit,
  optional "didChangeConfiguration" dynamicOnly,
  optional "didChangeWatchedFiles" (record [dynamic, optional "relativePatternSupport" flag]),
  optional "symbol" workspaceSymbol,
  optional "executeCommand" dynamicOnly,
  optional "workspaceFolders" flag,
  optional "configuration" flag,
  optional "semanticTokens" refresh,
  optional "codeLens" refresh,
  optional "fileOperations" fileOperations,
  optional "inlineValue" refresh,
  optional "inlayHint" refresh,
  optional "diagnostics" refresh]

/-! ### Documents -/

def synchronization : Shape :=
  record [dynamic, optional "willSave" flag, optional "willSaveWaitUntil" flag,
    optional "didSave" flag]

def completionItem : Shape :=
  record [
    optional "snippetSupport" flag,
    optional "commitCharactersSupport" flag,
    optional "documentationFormat" markup,
    optional "deprecatedSupport" flag,
    optional "preselectSupport" flag,
    tags,
    optional "insertReplaceSupport" flag,
    optional "resolveSupport" properties,
    optional "insertTextModeSupport" (record [required "valueSet" (listOf int32)]),
    optional "labelDetailsSupport" flag]

def completion : Shape :=
  record [dynamic, optional "completionItem" completionItem, optional "completionItemKind" numbers,
    optional "contextSupport" flag, optional "insertTextMode" int32,
    optional "completionList" (record [optional "itemDefaults" (listOf text)])]

def signatureHelp : Shape :=
  record [
    dynamic,
    optional "signatureInformation" (record [
      optional "documentationFormat" markup,
      optional "parameterInformation" (record [optional "labelOffsetSupport" flag]),
      optional "activeParameterSupport" flag]),
    optional "contextSupport" flag]

def documentSymbol : Shape :=
  record [dynamic, optional "symbolKind" numbers,
    optional "hierarchicalDocumentSymbolSupport" flag, tags]

/-- Going from a name to another place. -/
def goto : Shape := record [dynamic, optional "linkSupport" flag]

def codeAction : Shape :=
  record [
    dynamic,
    optional "codeActionLiteralSupport" (record [
      required "codeActionKind" (record [required "valueSet" (listOf text)])]),
    optional "isPreferredSupport" flag,
    optional "disabledSupport" flag,
    optional "dataSupport" flag,
    optional "resolveSupport" properties,
    optional "honorsChangeAnnotations" flag]

def rename : Shape :=
  record [dynamic, optional "prepareSupport" flag,
    optional "prepareSupportDefaultBehavior" int32, optional "honorsChangeAnnotations" flag]

def publishDiagnostics : Shape :=
  record [optional "relatedInformation" flag, tags, optional "versionSupport" flag,
    optional "codeDescriptionSupport" flag, optional "dataSupport" flag]

def foldingRange : Shape :=
  record [
    dynamic,
    optional "rangeLimit" nat32,
    optional "lineFoldingOnly" flag,
    optional "foldingRangeKind" (record [
      optional "valueSet" (listOf (word ["comment", "imports", "region"]))]),
    optional "foldingRange" (record [optional "collapsedText" flag])]

def semanticTokens : Shape :=
  record [
    dynamic,
    required "requests" (record [
      optional "range" flag,
      optional "full" (either flag (record [optional "delta" flag]))]),
    required "tokenTypes" (listOf text),
    required "tokenModifiers" (listOf text),
    required "formats" (listOf text),
    optional "overlappingTokenSupport" flag,
    optional "multilineTokenSupport" flag,
    optional "serverCancelSupport" flag,
    optional "augmentsSyntaxTokens" flag]

/-- Abilities around a document. -/
def textDocument : List RecordField := [
  optional "synchronization" synchronization,
  optional "completion" completion,
  optional "hover" (record [dynamic, optional "contentFormat" markup]),
  optional "signatureHelp" signatureHelp,
  optional "references" dynamicOnly,
  optional "documentHighlight" dynamicOnly,
  optional "documentSymbol" documentSymbol,
  optional "formatting" dynamicOnly,
  optional "rangeFormatting" dynamicOnly,
  optional "onTypeFormatting" dynamicOnly,
  optional "declaration" goto,
  optional "definition" goto,
  optional "typeDefinition" goto,
  optional "implementation" goto,
  optional "codeAction" codeAction,
  optional "codeLens" dynamicOnly,
  optional "documentLink" (record [dynamic, optional "tooltipSupport" flag]),
  optional "colorProvider" dynamicOnly,
  optional "rename" rename,
  optional "publishDiagnostics" publishDiagnostics,
  optional "foldingRange" foldingRange,
  optional "selectionRange" dynamicOnly,
  optional "linkedEditingRange" dynamicOnly,
  optional "callHierarchy" dynamicOnly,
  optional "semanticTokens" semanticTokens,
  optional "moniker" dynamicOnly,
  optional "typeHierarchy" dynamicOnly,
  optional "inlineValue" dynamicOnly,
  optional "inlayHint" (record [dynamic, optional "resolveSupport" properties]),
  optional "diagnostic" (record [dynamic, optional "relatedDocumentSupport" flag])]

/-! ### The rest -/

def notebookDocument : Shape :=
  record [required "synchronization" (record [dynamic, optional "executionSummaryReport" flag])]

def window : Shape :=
  record [
    optional "workDoneProgress" flag,
    optional "showMessage" (record [
      optional "messageActionItem" (record [optional "additionalPropertiesSupport" flag])]),
    optional "showDocument" (record [required "support" flag])]

/-- Abilities that are not about one feature. -/
def general : List RecordField := [
  optional "regularExpressions" (record [required "engine" text, optional "version" text]),
  optional "markdown" (record [required "parser" text, optional "version" text,
    optional "allowedTags" (listOf text)]),
  optional "staleRequestSupport" (record [required "cancel" flag,
    required "retryOnContentModified" (listOf text)]),
  optional "positionEncodings" (listOf text)]

/-- All abilities. -/
def all : List RecordField := [
  optional "workspace" (record workspace),
  optional "textDocument" (record textDocument),
  optional "notebookDocument" notebookDocument,
  optional "window" window,
  optional "general" (record general),
  optional "offsetEncoding" (listOf text),
  optional "experimental" any]

/-- What stands in a field of a record, if it is there. -/
def inside (fields : List RecordField) (key : String) (v : Option Value) : Option Value := do
  let r ← (← v).record? (RecordField.names fields)
  (r.entries.lookup key).filter fun v => !v.isNull

/-- The abilities around the workspace. -/
def ofWorkspace (key : String) (v : Value) : Option Value :=
  inside workspace key (inside all "workspace" (some v))

/-- The encodings that a client offers, best first. -/
def encodings (v : Value) : List String :=
  ((inside general "positionEncodings" (inside all "general" (some v))).bind
    (Value.listOf? Value.text?)).getD []

/-- A client can be asked for its configuration. -/
def answersConfiguration (v : Value) : Bool :=
  ((ofWorkspace "configuration" v).bind Value.bool?).getD false

/-- A client can be asked to report changes of its configuration. -/
def registersConfiguration (v : Value) : Bool :=
  ((inside [dynamic] dynamic.name (ofWorkspace "didChangeConfiguration" v)).bind
    Value.bool?).getD false

end RubyLens.Capabilities
