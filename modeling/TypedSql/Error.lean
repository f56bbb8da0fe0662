/-! The ways in which writing a tree fails. Writing is a function of the tree and the configuration,
so each error is a property of these two. -/

namespace TypedSql

inductive RenderError where
  /-- No handler is registered for the kind of a dialect's node. -/
  | unsupportedExtension (node kind : String)
  /-- A node breaks a rule that writing relies on. -/
  | malformedTree (node reason : String)
  /-- The tree nests deeper than the limit. -/
  | recursionLimitExceeded (limit : Nat)
  /-- A handler could not format its output. -/
  | formatFailure
  deriving DecidableEq, Inhabited

namespace RenderError

/-- The text of an error. -/
def message : RenderError → String
  | unsupportedExtension node kind =>
    s!"no render extension registered for {node} payload " ++ "`" ++ kind ++ "`"
  | malformedTree node reason => s!"malformed {node}: {reason}"
  | recursionLimitExceeded limit => s!"recursion limit of {limit} exceeded while rendering"
  | formatFailure => "an error occurred when formatting an argument"

/-- Whether the error says that a handler is missing. -/
def isUnsupported : RenderError → Bool
  | unsupportedExtension _ _ => true
  | _ => false

end RenderError

end TypedSql
