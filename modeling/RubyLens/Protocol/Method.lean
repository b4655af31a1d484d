import RubyLens.Lint.Diagnostic
import RubyLens.Protocol.Shape

/-!
Methods of the protocol that the server knows but has nothing to say to. A request with one of them
is looked at before it is declined, so that one with the wrong parameters is told so.
-/

namespace RubyLens.Method

open Json (Value)
open RecordField (required optional defaulted)
open Shape (any flag text nat32 int32 number uri position range word either listOf mapOf record
  mixed)

/-! ### Tokens for progress -/

/-- A number or a text, by which progress is reported. -/
def token : Shape := either int32 text

/-- The token for the progress of the work. -/
def work : RecordField := optional "workDoneToken" token

/-- The token for results that come in parts. -/
def part : RecordField := optional "partialResultToken" token

/-! ### Parts of parameters -/

def document : RecordField := required "textDocument" (record [required "uri" uri])

def place : List RecordField := [document, required "position" position]

def command : Shape :=
  record [required "title" text, required "command" text, optional "arguments" (listOf any)]

def textEdit : Shape := record [required "range" range, required "newText" text]

/-- A text that is meant to be shown. -/
def markup : Shape :=
  either text (record [required "kind" (word ["plaintext", "markdown"]), required "value" text])

def location : Shape := record [required "uri" uri, required "range" range]

/-- Options of formatting. Those that the protocol does not name may be numbers, texts or truth
values. -/
def formattingOptions : Shape := fun v =>
  let named := [required "tabSize" nat32, required "insertSpaces" flag,
    optional "trimTrailingWhitespace" flag, optional "insertFinalNewline" flag,
    optional "trimFinalNewlines" flag]
  match v with
  | .object ms =>
    let others := ms.filter fun m => m.1.all fun key => !(RecordField.names named).contains key
    mixed named v && others.all fun m => either flag (either text int32) m.2
  | _ => false

/-! ### Things that are resolved -/

def hierarchyItem (tags : Shape) : Shape :=
  record [required "name" text, required "kind" int32, optional "tags" tags,
    optional "detail" text, required "uri" uri, required "range" range,
    required "selectionRange" range, optional "data" any]

def documentLink : Shape :=
  record [required "range" range, optional "target" uri, optional "tooltip" text,
    optional "data" any]

def codeLens : Shape :=
  record [required "range" range, optional "command" command, optional "data" any]

def inlayHintLabelPart : Shape :=
  record [required "value" text, optional "tooltip" markup, optional "location" location,
    optional "command" command]

def inlayHint : Shape :=
  record [required "position" position, required "label" (either text (listOf inlayHintLabelPart)),
    optional "kind" int32, optional "textEdits" (listOf textEdit), optional "tooltip" markup,
    optional "paddingLeft" flag, optional "paddingRight" flag, optional "data" any]

def completionItem : Shape :=
  record [
    required "label" text,
    optional "labelDetails" (record [optional "detail" text, optional "description" text]),
    optional "kind" int32,
    optional "detail" text,
    optional "documentation" markup,
    optional "deprecated" flag,
    optional "preselect" flag,
    optional "sortText" text,
    optional "filterText" text,
    optional "insertText" text,
    optional "insertTextFormat" int32,
    optional "insertTextMode" int32,
    optional "textEdit" (either textEdit
      (record [required "newText" text, required "insert" range, required "replace" range])),
    optional "additionalTextEdits" (listOf textEdit),
    optional "command" command,
    optional "commitCharacters" (listOf text),
    optional "data" any,
    optional "tags" (listOf int32)]

def workspaceSymbol : Shape :=
  record [required "name" text, required "kind" int32, optional "tags" (listOf int32),
    optional "containerName" text,
    required "location" (either location (record [required "uri" uri])), optional "data" any]

/-! ### Changes of the workspace -/

def documentEdit : Shape :=
  record [
    required "textDocument" (record [required "uri" uri, optional "version" int32]),
    required "edits" (listOf textEdit)]

/-- A file is made, renamed or deleted. -/
def fileChange : Shape := fun v =>
  let options (first second : String) : RecordField :=
    optional "options" (record [optional first flag, optional second flag])
  let note := optional "annotationId" text
  match (v.member? "kind").bind Value.text? with
  | some "create" =>
    mixed [required "uri" uri, options "overwrite" "ignoreIfExists", note] v
  | some "rename" =>
    mixed [required "oldUri" uri, required "newUri" uri, options "overwrite" "ignoreIfExists",
      note] v
  | some "delete" => mixed [required "uri" uri, options "recursive" "ignoreIfNotExists"] v
  | _ => false

def workspaceEdit : Shape :=
  record [
    optional "changes" (mapOf uri (listOf textEdit)),
    optional "documentChanges" (listOf (either documentEdit fileChange)),
    optional "changeAnnotations" (mapOf text
      (record [required "label" text, optional "needsConfirmation" flag,
        optional "description" text]))]

def codeAction : Shape :=
  record [
    required "title" text,
    optional "kind" text,
    optional "diagnostics" (listOf fun v => (Diagnostic.ofJson? v).isSome),
    optional "edit" workspaceEdit,
    optional "command" command,
    optional "isPreferred" flag,
    optional "disabled" (record [required "reason" text]),
    optional "data" any]

/-! ### Parameters with a context -/

def parameterInformation : Shape :=
  record [required "label" (either text fun v =>
      match v with
      | .list [a, b] => nat32 a && nat32 b
      | _ => false),
    optional "documentation" markup]

def signatureInformation : Shape :=
  record [required "label" text, optional "documentation" markup,
    optional "parameters" (listOf parameterInformation), optional "activeParameter" nat32]

def signatureContext : Shape :=
  record [
    required "triggerKind" int32,
    optional "triggerCharacter" text,
    required "isRetrigger" flag,
    optional "activeSignatureHelp" (record [required "signatures" (listOf signatureInformation),
      optional "activeSignature" nat32, optional "activeParameter" nat32])]

def completionContext : Shape :=
  record [required "triggerKind" int32, optional "triggerCharacter" text]

def inlineValueContext : Shape :=
  record [required "frameId" int32, required "stoppedLocation" range]

def color : Shape :=
  record [required "red" number, required "green" number, required "blue" number,
    required "alpha" number]

/-- A list of files, of each of which some addresses are told. -/
def files (keys : List String) : Shape :=
  record [required "files" (listOf (record (keys.map fun key => required key text)))]

/-! ### The methods -/

/-- Requests that are declined, with the shape of their parameters. -/
def declined : List (String × Shape) := [
  ("textDocument/willSaveWaitUntil", record [document, required "reason" int32]),
  ("textDocument/declaration", mixed (place ++ [work, part])),
  ("textDocument/definition", mixed (place ++ [work, part])),
  ("textDocument/typeDefinition", mixed (place ++ [work, part])),
  ("textDocument/implementation", mixed (place ++ [work, part])),
  ("textDocument/references", mixed (place ++ [work, part,
    required "context" (record [required "includeDeclaration" flag])])),
  ("textDocument/prepareCallHierarchy", mixed (place ++ [work])),
  ("callHierarchy/incomingCalls",
    mixed [required "item" (hierarchyItem (listOf int32)), work, part]),
  ("callHierarchy/outgoingCalls",
    mixed [required "item" (hierarchyItem (listOf int32)), work, part]),
  ("textDocument/prepareTypeHierarchy", mixed (place ++ [work])),
  ("typeHierarchy/supertypes", mixed [required "item" (hierarchyItem int32), work, part]),
  ("typeHierarchy/subtypes", mixed [required "item" (hierarchyItem int32), work, part]),
  ("textDocument/documentLink", mixed [document, work, part]),
  ("documentLink/resolve", documentLink),
  ("textDocument/hover", mixed (place ++ [work])),
  ("textDocument/codeLens", mixed [document, work, part]),
  ("codeLens/resolve", codeLens),
  ("textDocument/foldingRange", mixed [document, work, part]),
  ("textDocument/semanticTokens/full", mixed [document, work, part]),
  ("textDocument/semanticTokens/full/delta",
    mixed [document, required "previousResultId" text, work, part]),
  ("textDocument/semanticTokens/range", mixed [document, required "range" range, work, part]),
  ("textDocument/inlineValue",
    mixed [document, required "range" range, required "context" inlineValueContext, work]),
  ("textDocument/inlayHint", mixed [document, required "range" range, work]),
  ("inlayHint/resolve", inlayHint),
  ("textDocument/moniker", mixed (place ++ [work, part])),
  ("textDocument/completion",
    mixed (place ++ [work, part, optional "context" completionContext])),
  ("completionItem/resolve", completionItem),
  ("textDocument/diagnostic", mixed [document, optional "identifier" text,
    optional "previousResultId" text, work, part]),
  ("workspace/diagnostic", mixed [optional "identifier" text,
    required "previousResultIds" (listOf (record [required "uri" uri, required "value" text])),
    work, part]),
  ("textDocument/signatureHelp",
    mixed (place ++ [optional "context" signatureContext, work])),
  ("codeAction/resolve", codeAction),
  ("textDocument/documentColor", mixed [document, work, part]),
  ("textDocument/colorPresentation",
    mixed [document, required "color" color, required "range" range, work, part]),
  ("textDocument/onTypeFormatting",
    mixed (place ++ [required "ch" text, required "options" formattingOptions])),
  ("textDocument/rename", mixed (place ++ [required "newName" text, work])),
  ("textDocument/prepareRename", record place),
  ("textDocument/linkedEditingRange", mixed (place ++ [work])),
  ("workspace/symbol", mixed [required "query" text, work, part]),
  ("workspaceSymbol/resolve", workspaceSymbol),
  ("workspace/willCreateFiles", files ["uri"]),
  ("workspace/willRenameFiles", files ["oldUri", "newUri"]),
  ("workspace/willDeleteFiles", files ["uri"])]

/-- Notifications from which nothing follows. -/
def ignored : List String := [
  "textDocument/willSave", "textDocument/didSave", "notebookDocument/didOpen",
  "notebookDocument/didChange", "notebookDocument/didSave", "notebookDocument/didClose",
  "workspace/didChangeWorkspaceFolders", "workspace/didCreateFiles", "workspace/didRenameFiles",
  "workspace/didDeleteFiles", "workspace/didChangeWatchedFiles", "window/workDoneProgress/cancel",
  "$/cancelRequest"]

end RubyLens.Method
