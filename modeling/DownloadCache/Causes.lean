/-!
# Chains of causes

The texts of a failure, from what was attempted to what stopped it.  A failure is reported in
one line, or as a report that gives the attempt a line of its own and sets the causes below it.
-/

namespace DownloadCache

set_option autoImplicit false

/-- What was attempted, and the causes of its failure from the outermost to the innermost. -/
structure Causes where
  attempt : String
  causes : List String := []
deriving DecidableEq

/-- The texts in one line. -/
def Causes.oneLine (chain : Causes) : String :=
  ": ".intercalate (chain.attempt :: chain.causes)

/-- A cause below its lead, later lines of it set as far in as the first. -/
def Causes.indented (lead hanging cause : String) : String :=
  lead ++ ("\n" ++ hanging).intercalate (cause.splitOn "\n")

/-- A number in front of a cause, set to the right in five columns. -/
def Causes.numberLead (number : Nat) : String :=
  let digits := toString number
  String.ofList (List.replicate (5 - digits.length) ' ') ++ digits ++ ": "

/-- The texts as a report; the causes are numbered if there is more than one. -/
def Causes.report (chain : Causes) : String :=
  let lines := match chain.causes with
    | [] => []
    | [cause] => [Causes.indented "    " "    " cause]
    | several =>
        several.zipIdx.map fun (cause, number) =>
          Causes.indented (Causes.numberLead number) "       " cause
  if lines.isEmpty then chain.attempt
  else chain.attempt ++ "\n\nCaused by:\n" ++ "\n".intercalate lines

end DownloadCache
