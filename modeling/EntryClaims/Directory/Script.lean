/-
# A directory that follows a script

Such a directory gives prepared answers, one for each question, whatever the question is.
When the script is over it agrees to everything and finds nothing.
-/
import EntryClaims.Directory.Dialogue

namespace EntryClaims

/-- A prepared answer. -/
inductive Reply where
  /-- The question is answered with an error. -/
  | fail (error : Error)
  /-- A search finds these entries; anything else succeeds. -/
  | entries (found : List Record)
  /-- Everything succeeds; a search finds nothing. -/
  | agree
deriving DecidableEq

namespace Reply

/-- The answer to an operation. -/
def answer (reply : Reply) : (operation : Operation) → Except Error operation.Result
  | .search .. =>
    match reply with
    | .fail error => .error error
    | .entries found => .ok found
    | .agree => .ok []
  | .add .. | .modify .. | .delete .. =>
    match reply with
    | .fail error => .error error
    | _ => .ok ()

/-- The answer to an authentication. -/
def grant (reply : Reply) : Except Error Unit :=
  match reply with
  | .fail error => .error error
  | _ => .ok ()

end Reply

namespace Script

/-- The directory that answers from a list of replies. -/
def directory : Directory Unit (List Reply) where
  authenticate _ replies := ((replies.head?.getD .agree).grant, replies.tail)
  perform _ operation replies := ((replies.head?.getD .agree).answer operation, replies.tail)

end Script
end EntryClaims
