import BrowserActions.Decode
import BrowserActions.Json.Reader

/-!
# Typed values from JSON texts

A fault of the value comes before a fault of what stands behind it.
-/
namespace BrowserActions.Json

def readAs {α : Type} (read : Draft → Decode.Result α) (cs : List Char) : Decode.Result α := do
  let r := reading cs
  let a ← read r.draft
  if r.whole then pure a else throw .malformed

end BrowserActions.Json
