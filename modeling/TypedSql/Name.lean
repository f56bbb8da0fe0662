/-! Names of tables, columns and other objects. A name is simple, or it is compound: several
identifiers written with dots between them. -/

namespace TypedSql

/-- A single identifier. Its contents are arbitrary, because it is always written quoted. -/
abbrev Ident := String

/-- A name that may be qualified. -/
inductive Name where
  | simple (ident : Ident)
  /-- Two or more segments. A tree may hold fewer, and then writing the name fails. -/
  | compound (segments : List Ident)
  deriving DecidableEq, Inhabited

namespace Name

/-- The identifiers of a name, from the outermost qualifier to the object. -/
def segments : Name → List Ident
  | simple ident => [ident]
  | compound segments => segments

/-- The last segment, which names the object itself. -/
def base? (n : Name) : Option Ident :=
  n.segments.getLast?

/-- Splits a text at its dots. A text without a dot is a simple name. -/
def ofDotted (s : String) : Name :=
  match (s.toList.splitOn '.').map String.ofList with
  | [ident] => simple ident
  | segments => compound segments

end Name

end TypedSql
