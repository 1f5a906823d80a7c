import GoScaffold.Grammar.Expr

set_option autoImplicit false

/-! # The grammar of table declarations

MySQL's `CREATE TABLE`, over a text raised to ASCII capitals. Each rule is an expression; rules
without a name of their own in trees are plain definitions. -/

namespace GoScaffold.Grammar.Ddl

/-! ## Tokens -/

/-- A punctuation mark. -/
def mark (c : Char) : Expr := .silent (Scan.word [c])

/-- The end of the text. -/
def endOfText : Expr := .token .endOfText Scan.atEnd

/-- A keyword that no identifier character follows. -/
def kw (k : Keyword) : Expr :=
  .token (.keyword k) (Scan.keyword
    (match k with
      | .autoIncrement => [k.spelling, "AUTOINCREMENT"]
      | _ => [k.spelling]))

def typeName : Expr := .token .typeName Scan.typeName
def bareIdent : Expr := .token .bareIdent Scan.bareIdent
def quotedIdent : Expr := .token .quotedIdent Scan.quotedIdent
def identifier : Expr := .token .identifier Scan.identifier
def stringLiteral : Expr := .token .stringLiteral Scan.stringLiteral
def bitLiteral : Expr := .token .bitLiteral Scan.bitLiteral
def number : Expr := .token .number Scan.number
def signedNumber : Expr := .token .signedNumber Scan.signedNumber
def parenExpr : Expr := .token .parenExpr Scan.parenExpr
def currentTimestamp : Expr := .token .currentTimestamp Scan.currentTimestamp

/-! ## Phrases of several places -/

/-- One or more, with commas between them. -/
def list (e : Expr) : Expr := e >> .many (mark ',' >> e)

def tableName : Expr := .phrase .tableName (identifier >> .opt (mark '.' >> identifier))

def collateClause : Expr :=
  .phrase .collateClause (kw .collate >> .opt (mark '=') >> (identifier <|> stringLiteral))

def charsetClause : Expr :=
  .phrase .charsetClause
    (((kw .character >> kw .set) <|> kw .charset) >> .opt (mark '=') >> (identifier <|> stringLiteral))

def checkDef : Expr :=
  .phrase .checkDef (kw .check >> parenExpr >> .opt (.opt (kw .not_) >> kw .enforced))

def visibility : Expr := .phrase .visibility (kw .visible <|> kw .invisible)

def keyPart : Expr :=
  .phrase .keyPart
    (identifier >> .opt (mark '(' >> number >> mark ')') >> .opt (kw .asc <|> kw .desc))

def keyParts : Expr := .phrase .keyParts (mark '(' >> list keyPart >> mark ')')

def refAction : Expr :=
  .phrase .refAction
    (kw .restrict <|> kw .cascade <|> (kw .set >> kw .null) <|> (kw .set >> kw .default)
      <|> (kw .no >> kw .action))

def references : Expr :=
  .phrase .references
    (kw .references >> tableName >> keyParts
      >> .opt (kw .match_ >> bareIdent)
      >> .many (kw .on >> (kw .delete <|> kw .update) >> refAction))

/-! ## Columns -/

def typeArg : Expr := signedNumber <|> stringLiteral <|> identifier

def typeArgs : Expr := .phrase .typeArgs (mark '(' >> .opt (list typeArg) >> mark ')')

def typeModifier : Expr :=
  kw .unsigned <|> kw .signed <|> kw .zerofill <|> kw .binary <|> charsetClause <|> collateClause

def dataType : Expr :=
  .phrase .dataType
    (typeName >> .opt (kw .precision) >> .opt (kw .varying) >> .opt typeArgs >> .many typeModifier)

def defaultValue : Expr :=
  .phrase .defaultValue
    (currentTimestamp <|> parenExpr <|> signedNumber <|> stringLiteral <|> bitLiteral
      <|> kw .null <|> kw .true_ <|> kw .false_ <|> bareIdent)

def notNull : Expr := .phrase .notNull (kw .not_ >> kw .null)
def nullAttr : Expr := .phrase .nullAttr (kw .null)
def defaultClause : Expr := .phrase .defaultClause (kw .default >> defaultValue)
def autoIncrement : Expr := .phrase .autoIncrement (kw .autoIncrement)
def onUpdate : Expr := .phrase .onUpdate (kw .on >> kw .update >> currentTimestamp)
def primaryAttr : Expr := .phrase .primaryAttr (.opt (kw .primary) >> kw .key)
def uniqueAttr : Expr := .phrase .uniqueAttr (kw .unique >> .opt (kw .key))
def commentAttr : Expr := .phrase .commentAttr (kw .comment >> stringLiteral)

def generatedClause : Expr :=
  .phrase .generatedClause
    (.opt (kw .generated >> kw .always) >> kw .as_ >> parenExpr
      >> .opt (kw .virtual <|> kw .stored))

def columnFormat : Expr := .phrase .columnFormat (kw .columnFormat >> bareIdent)
def storage : Expr := .phrase .storage (kw .storage >> bareIdent)
def srid : Expr := .phrase .srid (kw .srid >> number)

def columnAttr : Expr :=
  notNull <|> nullAttr <|> defaultClause <|> autoIncrement <|> onUpdate <|> primaryAttr
    <|> uniqueAttr <|> commentAttr <|> collateClause <|> charsetClause <|> generatedClause
    <|> checkDef <|> references <|> visibility <|> columnFormat <|> storage <|> srid

def columnDef : Expr := .phrase .columnDef (identifier >> dataType >> .many columnAttr)

/-! ## Table constraints -/

def indexName : Expr := .phrase .indexName (.never (kw .using) >> identifier)

def indexType : Expr := .phrase .indexType (kw .using >> (kw .btree <|> kw .hash))

def indexOption : Expr :=
  indexType <|> (kw .comment >> stringLiteral)
    <|> (kw .keyBlockSize >> .opt (mark '=') >> number)
    <|> (kw .with_ >> kw .parser >> identifier) <|> visibility

def constraintName : Expr :=
  .phrase .constraintName
    (kw .constraint
      >> .opt (.never (kw .primary <|> kw .unique <|> kw .foreign <|> kw .check) >> identifier))

def primaryKeyDef : Expr :=
  .phrase .primaryKeyDef
    (kw .primary >> kw .key >> .opt indexType >> keyParts >> .many indexOption)

def uniqueKeyDef : Expr :=
  .phrase .uniqueKeyDef
    (kw .unique >> .opt (kw .key <|> kw .index) >> .opt indexName >> .opt indexType >> keyParts
      >> .many indexOption)

def indexDef : Expr :=
  .phrase .indexDef
    (.opt (kw .fulltext <|> kw .spatial) >> (kw .key <|> kw .index) >> .opt indexName
      >> .opt indexType >> keyParts >> .many indexOption)

def foreignKeyDef : Expr :=
  .phrase .foreignKeyDef (kw .foreign >> kw .key >> .opt indexName >> keyParts >> references)

def tableConstraint : Expr :=
  .phrase .tableConstraint
    ((.opt constraintName >> (primaryKeyDef <|> uniqueKeyDef <|> foreignKeyDef <|> checkDef))
      <|> indexDef)

/-! ## Table options -/

def tableComment : Expr := .phrase .tableComment (kw .comment >> .opt (mark '=') >> stringLiteral)

def optionName : Expr :=
  .phrase .optionName
    ((kw .character >> kw .set) <|> kw .charset <|> kw .collate <|> bareIdent)

def optionValue : Expr :=
  .phrase .optionValue (stringLiteral <|> signedNumber <|> parenExpr <|> bareIdent)

def genericOption : Expr :=
  .phrase .genericOption (.opt (kw .default) >> optionName >> .opt (mark '=') >> optionValue)

def tableOption : Expr := .opt (mark ',') >> (tableComment <|> genericOption)

/-! ## The statement -/

def ifNotExists : Expr := .phrase .ifNotExists (kw .if_ >> kw .not_ >> kw .exists)

def createDefinition : Expr := tableConstraint <|> columnDef

def createTable : Expr :=
  .phrase .createTable
    (.start >> kw .create >> .opt (kw .temporary) >> kw .table >> .opt ifNotExists >> tableName
      >> mark '(' >> list createDefinition >> mark ')'
      >> .many tableOption >> .opt (mark ';') >> endOfText)

/-! ## Rules by name -/

/-- The expression that a rule records. -/
def ofRule : Rule → Expr
  | .endOfText => endOfText
  | .createTable => createTable
  | .ifNotExists => ifNotExists
  | .tableName => tableName
  | .columnDef => columnDef
  | .dataType => dataType
  | .typeName => typeName
  | .typeArgs => typeArgs
  | .notNull => notNull
  | .nullAttr => nullAttr
  | .defaultClause => defaultClause
  | .autoIncrement => autoIncrement
  | .onUpdate => onUpdate
  | .primaryAttr => primaryAttr
  | .uniqueAttr => uniqueAttr
  | .commentAttr => commentAttr
  | .collateClause => collateClause
  | .charsetClause => charsetClause
  | .generatedClause => generatedClause
  | .visibility => visibility
  | .columnFormat => columnFormat
  | .storage => storage
  | .srid => srid
  | .defaultValue => defaultValue
  | .currentTimestamp => currentTimestamp
  | .tableConstraint => tableConstraint
  | .constraintName => constraintName
  | .primaryKeyDef => primaryKeyDef
  | .uniqueKeyDef => uniqueKeyDef
  | .indexDef => indexDef
  | .foreignKeyDef => foreignKeyDef
  | .checkDef => checkDef
  | .indexName => indexName
  | .indexType => indexType
  | .keyParts => keyParts
  | .keyPart => keyPart
  | .references => references
  | .refAction => refAction
  | .tableComment => tableComment
  | .genericOption => genericOption
  | .optionName => optionName
  | .optionValue => optionValue
  | .bareIdent => bareIdent
  | .quotedIdent => quotedIdent
  | .identifier => identifier
  | .stringLiteral => stringLiteral
  | .bitLiteral => bitLiteral
  | .number => number
  | .signedNumber => signedNumber
  | .parenExpr => parenExpr
  | .keyword k => kw k

/-- Any one character. -/
def anyChar : Expr := .silent (Scan.one fun _ => true)

/-- The rules that leave no trace of their own in trees, by name. Taken as a phrase, a comment lets
white space and comments stand between its characters. -/
def silent : List (String × Expr) := [
  ("WHITESPACE", .silent (Scan.one Scan.isSpace)),
  ("COMMENT", .silent Scan.comment),
  ("block_comment",
    .silent (Scan.word ['/', '*']) >> .many (.never (.silent (Scan.word ['*', '/'])) >> anyChar)
      >> .silent (Scan.word ['*', '/'])),
  ("line_comment",
    (mark '#' <|> .silent (Scan.word ['-', '-', ' '])) >> .many (.never (mark '\n') >> anyChar)),
  ("create_definition", createDefinition),
  ("type_arg", typeArg),
  ("type_modifier", typeModifier),
  ("column_attr", columnAttr),
  ("index_option", indexOption),
  ("table_option", tableOption),
  ("ident_char", .silent (Scan.one Scan.isIdentChar))]

/-- The expression of the rule with this name. -/
def byName? (name : String) : Option Expr :=
  match Rule.all.find? fun r => r.name == name with
  | some r => some (ofRule r)
  | none => silent.lookup name

end GoScaffold.Grammar.Ddl
