import Gatehouse.Text.Pieces
import Gatehouse.Text.Percent

/-!
The query of a URL as pairs of name and value, in their order. A field without `=` has a blank value; blank
values are kept or dropped as the reader asks.
-/

namespace Gatehouse.Url

open Text

/-- One field taken apart at its first `=`. -/
def readField (keepBlank : Bool) (field : List Char) : Option (String × String) :=
  if field.isEmpty then none
  else
    let (name, value) := cut '=' field
    let value := value.getD []
    if value.isEmpty && !keepBlank then none
    else some (String.ofList (unescapeField name), String.ofList (unescapeField value))

def queryPairs (keepBlank : Bool) (query : List Char) : List (String × String) :=
  (pieces '&' query).filterMap (readField keepBlank)

theorem queryPairs_nil (keepBlank : Bool) : queryPairs keepBlank [] = [] := by
  simp [queryPairs, pieces, readField]

end Gatehouse.Url
