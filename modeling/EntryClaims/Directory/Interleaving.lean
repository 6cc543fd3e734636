/-
# Dialogues side by side

Several dialogues may be held with one directory at the same time.  Each step lets one of them
ask its next question; in which order they do is left open.
-/
import EntryClaims.Directory.Dialogue

namespace EntryClaims
namespace Dialogue

variable {σ α S : Type}

/-- The dialogue after its next question, and the directory's state; none when it is over. -/
def step? (directory : Directory σ S) : Dialogue σ α → S → Option (Dialogue σ α × S)
  | .done _, _ => none
  | .authenticate request next, state =>
    let (answer, state) := directory.authenticate request state
    some (next answer, state)
  | .perform session operation next, state =>
    let (answer, state) := directory.perform session operation state
    some (next answer, state)

/-- Dialogues that are under way with one directory. -/
structure Pool (σ α S : Type) where
  /-- The dialogues. -/
  dialogues : List (Dialogue σ α)
  /-- The directory's state. -/
  state : S

end Dialogue
end EntryClaims
