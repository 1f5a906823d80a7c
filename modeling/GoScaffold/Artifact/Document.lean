import GoScaffold.Artifact.Operation
import GoScaffold.Go.File
import GoScaffold.Json

set_option autoImplicit false

/-! # Document

The Markdown document of the interface: per table its fields, and per operation a request, an
answer and a command that sends the request. -/

namespace GoScaffold.Document

/-! ## Samples -/

/-- The sample value of each known type keyword. -/
def samples : List (List String × Json) := [
  (["TINYINT", "BOOL", "BOOLEAN"], .bool true),
  (["SMALLINT", "MEDIUMINT", "INT", "INTEGER", "YEAR"], .number "1"),
  (["BIGINT"], .number "10000"),
  (["FLOAT", "DOUBLE", "REAL", "DECIMAL", "DEC", "NUMERIC"], .number "3.14"),
  (["CHAR"], .text "c"),
  (["VARCHAR"], .text "s"),
  (["TINYTEXT", "TEXT", "MEDIUMTEXT", "LONGTEXT"], .text "abc"),
  (["ENUM", "SET"], .text "a"),
  (["JSON"], .text "\x7b\x7d"),
  (["TIME"], .text "06:07:08"),
  (["DATE"], .text "2023-04-05T00:00:00Z"),
  (["DATETIME", "TIMESTAMP"], .text "2023-04-05T06:07:08Z")]

/-- The sample value of a column; the type keyword has to stand in capitals. -/
def sample (c : Column) : Json :=
  match samples.find? fun (names, _) => names.contains c.declaredType with
  | some (_, value) => value
  | none => .object []

/-- A sample record of some columns. -/
def sampleRecord (columns : List Column) : List (String × Json) :=
  columns.foldl (fun members c => Json.set members c.wireName (sample c)) []

/-- A request around its data. -/
def request (data : List (String × Json)) : Json :=
  .object [("timestamp", .number "1681466601123"), ("data", .object data)]

/-- An answer, perhaps around data. -/
def response (data : Option Json) : Json :=
  .object ([("code", .number "200"), ("message", .text "success")]
    ++ data.toList.map fun d => ("data", d))

/-- The data that an operation of a table is sent. -/
def requestData (t : Table) : Operation → List (String × Json)
  | .create => sampleRecord (t.columns.filter fun c => !c.isGenerated)
  | .update => sampleRecord t.columns
  | .list =>
    Json.set (Json.set (sampleRecord t.columns) "page" (.number "1")) "size" (.number "10")
  | .get | .delete => sampleRecord (t.keys.primary.getD [])

/-- The data that an operation of a table answers with. -/
def responseData (t : Table) : Operation → Option Json
  | .create | .update | .get => some (.object (sampleRecord t.columns))
  | .list =>
    some (.object [("count", .number "1"), ("list", .array [.object (sampleRecord t.columns)])])
  | .delete => none

/-! ## Sections -/

/-- The text with spaces after it up to a number of characters. -/
def padded (width : Nat) (s : String) : String :=
  s ++ String.ofList (List.replicate (width - s.length) ' ')

/-- What the document says about a column. -/
def description (c : Column) : String :=
  match c.comment with
  | some comment => Text.oneLine comment
  | none => c.name

/-- The fields of a table with what they mean, the names padded to one width. -/
def fieldsSection (t : Table) : String :=
  let width := t.columns.foldl (fun w c => max w c.wireName.length) 0
  "### Fields\n\n```text\n"
    ++ Text.concat (t.columns.map fun c =>
      padded width c.wireName ++ " : " ++ description c ++ "\n")
    ++ "```\n\n"

/-- The section of an operation. -/
def operationSection (t : Table) (op : Operation) : String :=
  let body := request (requestData t op)
  let answer := response (responseData t op)
  "### " ++ op.title ++ "\n\n`" ++ op.method ++ " " ++ op.route t ++ "`\n\n"
    ++ "Request:\n\n```json\n" ++ body.pretty 0 ++ "\n```\n\n"
    ++ "Response:\n\n```json\n" ++ answer.pretty 0 ++ "\n```\n\n"
    ++ "Example:\n\n```shell\ncurl -X " ++ op.method ++ " \"http://$HOST:$PORT" ++ op.route t
    ++ "\" -H \"Content-Type: application/json\" -d '" ++ body.compact ++ "'\n```\n\n"

/-- The section of a table. -/
def tableSection (t : Table) : String :=
  "## " ++ t.modelName ++ "\n\n"
    ++ (match t.comment with
      | some comment => Text.oneLine comment ++ "\n\n"
      | none => "")
    ++ fieldsSection t
    ++ Text.concat ((Operation.ofTable t).map (operationSection t))

/-- What stands before the tables. -/
def preamble (o : Options) (today : String) : String :=
  "# Application Document\n\n"
    ++ (match o.bannerText? today with
      | some banner => "> " ++ banner ++ "\n\n"
      | none => "")
    ++ "```shell\nHOST=127.0.0.1\nPORT=8080\n```\n\n"

/-- The document; no empty line ends it. -/
def text (tables : List Table) (o : Options) (today : String) : String :=
  Go.endOnce (preamble o today ++ Text.concat (tables.map tableSection))

end GoScaffold.Document
