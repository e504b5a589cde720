import RuleGate.Base64
import RuleGate.Text.Blank
import RuleGate.Text.Case
import RuleGate.Text.Split

/-!
# Basic credentials

A user name and a password as an `Authorization` header carries them: the scheme word `Basic` in any
letter case, a space, and the standard Base64 of `user:password`.
-/

namespace RuleGate

structure BasicCredentials where
  user : String
  password : String
deriving DecidableEq, Repr

namespace BasicCredentials

/-- Splits at the first colon, so a password may hold colons and a user name may not. -/
def ofText? (s : List Char) : Option BasicCredentials :=
  (Text.cut? ':' s).map fun (user, password) => ⟨String.ofList user, String.ofList password⟩

def parse? (header : String) : Option BasicCredentials := do
  let (scheme, encoded) ← Text.cut? ' ' (Text.trim header.toList)
  if Text.eqIgnoreAsciiCase scheme "basic".toList then
    let decoded ← Base64.standard.decode? (Text.trim encoded)
    ofText? (← Text.utf8Decode? decoded)
  else none

end BasicCredentials

end RuleGate
