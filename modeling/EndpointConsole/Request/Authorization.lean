import EndpointConsole.Text

/-!
Authorization with a bearer token, which may be given with its scheme or without.
-/
namespace EndpointConsole.Request

def scheme : Text := "Bearer ".toList

/-- Whether a token begins with the scheme in any case. -/
def hasScheme (token : Text) : Bool :=
  Text.sameLetters (token.take scheme.length) scheme

/-- The value of the authorization header for a token; a blank token gives none. -/
def bearer? (token : Text) : Option Text :=
  let token := Text.trim token
  if token.isEmpty then none
  else if hasScheme token then some token
  else some (scheme ++ token)

end EndpointConsole.Request
