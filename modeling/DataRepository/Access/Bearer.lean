import DataRepository.Text.Blank

/-!
# Bearer credentials

The form of an authorization header that carries an access token: the word `bearer` in any case of
its ASCII letters, a space, and the token, with white space around and between.
-/
namespace DataRepository.Access

def bearerScheme : List Char := "bearer ".toList

def bearerToken? (header : String) : Option String :=
  let cs := Text.trimChars header.toList
  let token := Text.trimChars (cs.drop bearerScheme.length)
  if (cs.take bearerScheme.length).map Char.toLower = bearerScheme ∧ token ≠ [] then
    some (String.ofList token)
  else none

example : bearerToken? " BEARER \t abc.d " = some "abc.d" ∧ bearerToken? "Bearer" = none ∧
    bearerToken? "Basic abc" = none := by decide

end DataRepository.Access
