/-! The closed choices of the grammar, each with its SQL keywords. -/

namespace TypedSql

/-- Binary operators. -/
inductive BinaryOp where
  | eq | notEq | lt | ltEq | gt | gtEq
  | and | or
  | add | sub | mul | div
  | concat | like | notLike
  /-- Any other operator, written as it is. -/
  | custom (text : String)
  deriving DecidableEq, Inhabited

def BinaryOp.sql : BinaryOp → String
  | eq => "="
  | notEq => "<>"
  | lt => "<"
  | ltEq => "<="
  | gt => ">"
  | gtEq => ">="
  | and => "AND"
  | or => "OR"
  | add => "+"
  | sub => "-"
  | mul => "*"
  | div => "/"
  | concat => "||"
  | like => "LIKE"
  | notLike => "NOT LIKE"
  | custom text => text

/-- Operators before their operand. -/
inductive UnaryOp where
  | not | neg | plus
  /-- Any other operator, written as it is, directly before the operand. -/
  | custom (text : String)
  deriving DecidableEq, Inhabited

/-- The text before the operand, with the space that `NOT` needs. -/
def UnaryOp.sql : UnaryOp → String
  | not => "NOT "
  | neg => "-"
  | plus => "+"
  | custom text => text

/-- The fields that `EXTRACT` takes from a date or time. -/
inductive DateField where
  | year | month | day | hour | minute | second | timezoneHour | timezoneMinute
  deriving DecidableEq, Inhabited

def DateField.sql : DateField → String
  | year => "YEAR"
  | month => "MONTH"
  | day => "DAY"
  | hour => "HOUR"
  | minute => "MINUTE"
  | second => "SECOND"
  | timezoneHour => "TIMEZONE_HOUR"
  | timezoneMinute => "TIMEZONE_MINUTE"

/-- Operations that combine two selects. -/
inductive SetOperator where
  | union | intersect | except
  deriving DecidableEq, Inhabited

def SetOperator.sql : SetOperator → String
  | union => "UNION"
  | intersect => "INTERSECT"
  | except => "EXCEPT"

/-- Sort directions. -/
inductive Direction where
  | asc | desc
  deriving DecidableEq, Inhabited

def Direction.sql : Direction → String
  | asc => "ASC"
  | desc => "DESC"

/-- Where nulls sort. -/
inductive NullsOrder where
  | first | last
  deriving DecidableEq, Inhabited

def NullsOrder.sql : NullsOrder → String
  | first => "NULLS FIRST"
  | last => "NULLS LAST"

/-- What happens to referring rows when the row that they refer to changes. -/
inductive ReferentialAction where
  | cascade | setNull | setDefault | noAction
  deriving DecidableEq, Inhabited

def ReferentialAction.sql : ReferentialAction → String
  | cascade => "CASCADE"
  | setNull => "SET NULL"
  | setDefault => "SET DEFAULT"
  | noAction => "NO ACTION"

/-- How null columns of a reference are matched. -/
inductive MatchType where
  | regular | full | partialMatch
  deriving DecidableEq, Inhabited

/-- The clause of a match type. The regular one has none. -/
def MatchType.sql : MatchType → String
  | regular => ""
  | full => " MATCH FULL"
  | partialMatch => " MATCH PARTIAL"

/-- How long a table lives. -/
inductive TableMode where
  | persistent | globalTemp | localTemp
  deriving DecidableEq, Inhabited

/-- The words between `CREATE` and the name of a table. -/
def TableMode.sql : TableMode → String
  | persistent => "TABLE"
  | globalTemp => "GLOBAL TEMPORARY TABLE"
  | localTemp => "LOCAL TEMPORARY TABLE"

/-- What a commit does to the rows of a temporary table. -/
inductive OnCommit where
  | delete | preserve
  deriving DecidableEq, Inhabited

def OnCommit.sql : OnCommit → String
  | delete => "DELETE ROWS"
  | preserve => "PRESERVE ROWS"

/-- How far the check option of a view reaches. -/
inductive CheckOption where
  | cascaded | localOnly
  deriving DecidableEq, Inhabited

def CheckOption.sql : CheckOption → String
  | cascaded => "CASCADED"
  | localOnly => "LOCAL"

/-- The kinds of objects that privileges apply to. -/
inductive ObjectKind where
  | table | domain | collation | characterSet
  /-- A mapping between two character sets. -/
  | conversion
  deriving DecidableEq, Inhabited

def ObjectKind.sql : ObjectKind → String
  | table => "TABLE"
  | domain => "DOMAIN"
  | collation => "COLLATION"
  | characterSet => "CHARACTER SET"
  | conversion => "TRANSLATION"

/-- What happens to dependent objects. -/
inductive DropBehavior where
  | cascade | restrict
  deriving DecidableEq, Inhabited

def DropBehavior.sql : DropBehavior → String
  | cascade => "CASCADE"
  | restrict => "RESTRICT"

/-- The kinds of objects that can be dropped. -/
inductive DropKind where
  | schema | table | view | domain
  deriving DecidableEq, Inhabited

def DropKind.sql : DropKind → String
  | schema => "SCHEMA"
  | table => "TABLE"
  | view => "VIEW"
  | domain => "DOMAIN"

end TypedSql
