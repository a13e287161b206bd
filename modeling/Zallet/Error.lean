/-
# `Zallet.Error` — the wallet's own errors

`error.rs`.  An error is its kind and what it is about; what it prints goes on
to ask for a report.
-/

namespace Zallet

inductive ErrorKind where
  | generic
  | init
  | chain
  | sync
  deriving DecidableEq, Repr

def ErrorKind.text : ErrorKind → String
  | .generic => "Error"
  | .init => "Failed to initialize zallet"
  | .chain => "An error occurred while accessing chain data."
  | .sync => "Failed to synchronize zallet"

structure Error where
  kind : ErrorKind
  source : Option String
  deriving DecidableEq, Repr

/-- `kind.context(source)` -/
def ErrorKind.context (kind : ErrorKind) (source : String) : Error := ⟨kind, some source⟩

namespace Error

/-- What the context of an error prints, on the first line. -/
def headline (e : Error) : String :=
  match e.source with
  | none => e.kind.text
  | some source => e.kind.text ++ ": " ++ source

def toString (e : Error) : String :=
  e.headline ++ "\n\n[ Did zallet not do what you expected? Could the error be more useful? ]\n" ++
    "[ Tell us: https://github.com/zcash/zallet/issues                      ]"

end Error

end Zallet
