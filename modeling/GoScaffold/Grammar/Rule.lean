import GoScaffold.Text.Cut

set_option autoImplicit false

/-! # Rules of the grammar

The names under which the grammar of table declarations records its parts: one per keyword, one per
token and phrase, and one for the end of the text. Messages list rules in the order of this file,
the end of the text first. -/

namespace GoScaffold.Grammar

/-- The keywords of table declarations. -/
inductive Keyword
  | action
  | always
  | as_
  | asc
  | autoIncrement
  | binary
  | btree
  | cascade
  | character
  | charset
  | check
  | collate
  | columnFormat
  | comment
  | constraint
  | create
  | default
  | delete
  | desc
  | enforced
  | exists
  | false_
  | foreign
  | fulltext
  | generated
  | hash
  | if_
  | index
  | invisible
  | key
  | keyBlockSize
  | match_
  | no
  | not_
  | null
  | on
  | parser
  | precision
  | primary
  | references
  | restrict
  | set
  | signed
  | spatial
  | srid
  | storage
  | stored
  | table
  | temporary
  | true_
  | unique
  | unsigned
  | update
  | using
  | varying
  | virtual
  | visible
  | with_
  | zerofill
  deriving DecidableEq, Repr

namespace Keyword

/-- Every keyword, in the order of messages. -/
def all : List Keyword := [
    .action, .always, .as_, .asc, .autoIncrement, .binary, .btree, .cascade, .character, .charset,
    .check, .collate, .columnFormat, .comment, .constraint, .create, .default, .delete, .desc,
    .enforced, .exists, .false_, .foreign, .fulltext, .generated, .hash, .if_, .index, .invisible,
    .key, .keyBlockSize, .match_, .no, .not_, .null, .on, .parser, .precision, .primary,
    .references, .restrict, .set, .signed, .spatial, .srid, .storage, .stored, .table, .temporary,
    .true_, .unique, .unsigned, .update, .using, .varying, .virtual, .visible, .with_, .zerofill]

/-- The keyword in capitals. -/
def spelling : Keyword → String
  | .action => "ACTION"
  | .always => "ALWAYS"
  | .as_ => "AS"
  | .asc => "ASC"
  | .autoIncrement => "AUTO_INCREMENT"
  | .binary => "BINARY"
  | .btree => "BTREE"
  | .cascade => "CASCADE"
  | .character => "CHARACTER"
  | .charset => "CHARSET"
  | .check => "CHECK"
  | .collate => "COLLATE"
  | .columnFormat => "COLUMN_FORMAT"
  | .comment => "COMMENT"
  | .constraint => "CONSTRAINT"
  | .create => "CREATE"
  | .default => "DEFAULT"
  | .delete => "DELETE"
  | .desc => "DESC"
  | .enforced => "ENFORCED"
  | .exists => "EXISTS"
  | .false_ => "FALSE"
  | .foreign => "FOREIGN"
  | .fulltext => "FULLTEXT"
  | .generated => "GENERATED"
  | .hash => "HASH"
  | .if_ => "IF"
  | .index => "INDEX"
  | .invisible => "INVISIBLE"
  | .key => "KEY"
  | .keyBlockSize => "KEY_BLOCK_SIZE"
  | .match_ => "MATCH"
  | .no => "NO"
  | .not_ => "NOT"
  | .null => "NULL"
  | .on => "ON"
  | .parser => "PARSER"
  | .precision => "PRECISION"
  | .primary => "PRIMARY"
  | .references => "REFERENCES"
  | .restrict => "RESTRICT"
  | .set => "SET"
  | .signed => "SIGNED"
  | .spatial => "SPATIAL"
  | .srid => "SRID"
  | .storage => "STORAGE"
  | .stored => "STORED"
  | .table => "TABLE"
  | .temporary => "TEMPORARY"
  | .true_ => "TRUE"
  | .unique => "UNIQUE"
  | .unsigned => "UNSIGNED"
  | .update => "UPDATE"
  | .using => "USING"
  | .varying => "VARYING"
  | .virtual => "VIRTUAL"
  | .visible => "VISIBLE"
  | .with_ => "WITH"
  | .zerofill => "ZEROFILL"

end Keyword

/-- The rules that matches and failures name. -/
inductive Rule
  | endOfText
  | createTable
  | ifNotExists
  | tableName
  | columnDef
  | dataType
  | typeName
  | typeArgs
  | notNull
  | nullAttr
  | defaultClause
  | autoIncrement
  | onUpdate
  | primaryAttr
  | uniqueAttr
  | commentAttr
  | collateClause
  | charsetClause
  | generatedClause
  | visibility
  | columnFormat
  | storage
  | srid
  | defaultValue
  | currentTimestamp
  | tableConstraint
  | constraintName
  | primaryKeyDef
  | uniqueKeyDef
  | indexDef
  | foreignKeyDef
  | checkDef
  | indexName
  | indexType
  | keyParts
  | keyPart
  | references
  | refAction
  | tableComment
  | genericOption
  | optionName
  | optionValue
  | bareIdent
  | quotedIdent
  | identifier
  | stringLiteral
  | bitLiteral
  | number
  | signedNumber
  | parenExpr
  | keyword (k : Keyword)
  deriving DecidableEq, Repr

namespace Rule

/-- Every rule, in the order of messages. -/
def all : List Rule := [
    .endOfText, .createTable, .ifNotExists, .tableName, .columnDef, .dataType, .typeName,
    .typeArgs, .notNull, .nullAttr, .defaultClause, .autoIncrement, .onUpdate, .primaryAttr,
    .uniqueAttr, .commentAttr, .collateClause, .charsetClause, .generatedClause, .visibility,
    .columnFormat, .storage, .srid, .defaultValue, .currentTimestamp, .tableConstraint,
    .constraintName, .primaryKeyDef, .uniqueKeyDef, .indexDef, .foreignKeyDef, .checkDef,
    .indexName, .indexType, .keyParts, .keyPart, .references, .refAction, .tableComment,
    .genericOption, .optionName, .optionValue, .bareIdent, .quotedIdent, .identifier,
    .stringLiteral, .bitLiteral, .number, .signedNumber, .parenExpr]
  ++ Keyword.all.map .keyword

/-- The name of the rule in trees and messages. -/
def name : Rule → String
  | .endOfText => "EOI"
  | .createTable => "create_table"
  | .ifNotExists => "if_not_exists"
  | .tableName => "table_name"
  | .columnDef => "column_def"
  | .dataType => "data_type"
  | .typeName => "type_name"
  | .typeArgs => "type_args"
  | .notNull => "not_null"
  | .nullAttr => "null_attr"
  | .defaultClause => "default_clause"
  | .autoIncrement => "auto_increment"
  | .onUpdate => "on_update"
  | .primaryAttr => "primary_attr"
  | .uniqueAttr => "unique_attr"
  | .commentAttr => "comment_attr"
  | .collateClause => "collate_clause"
  | .charsetClause => "charset_clause"
  | .generatedClause => "generated_clause"
  | .visibility => "visibility"
  | .columnFormat => "column_format"
  | .storage => "storage"
  | .srid => "srid"
  | .defaultValue => "default_value"
  | .currentTimestamp => "current_timestamp"
  | .tableConstraint => "table_constraint"
  | .constraintName => "constraint_name"
  | .primaryKeyDef => "primary_key_def"
  | .uniqueKeyDef => "unique_key_def"
  | .indexDef => "index_def"
  | .foreignKeyDef => "foreign_key_def"
  | .checkDef => "check_def"
  | .indexName => "index_name"
  | .indexType => "index_type"
  | .keyParts => "key_parts"
  | .keyPart => "key_part"
  | .references => "references"
  | .refAction => "ref_action"
  | .tableComment => "table_comment"
  | .genericOption => "generic_option"
  | .optionName => "option_name"
  | .optionValue => "option_value"
  | .bareIdent => "bare_ident"
  | .quotedIdent => "quoted_ident"
  | .identifier => "identifier"
  | .stringLiteral => "string_literal"
  | .bitLiteral => "bit_literal"
  | .number => "number"
  | .signedNumber => "signed_number"
  | .parenExpr => "paren_expr"
  | .keyword k => "kw_" ++ Text.onChars (·.map Char.toLower) k.spelling

end Rule

end GoScaffold.Grammar
