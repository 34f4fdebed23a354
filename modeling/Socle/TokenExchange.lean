import Mathlib.Data.List.Basic

/-!
What the connectors exchange with a provider's token endpoint: Python strings
and JSON bodies, the reading of a token response, the sealing of tokens, and
the exceptions these raise.
-/

namespace Socle.TokenExchange

/-- A Python `str`: its code points, lone surrogates included. -/
abbrev PyStr := List Nat

def py (s : String) : PyStr := s.toList.map Char.toNat

theorem py_injective : Function.Injective py := by
  intro s t h
  have hchars : s.toList = t.toList :=
    List.map_injective_iff.mpr (fun _ _ hc => Char.toNat_inj.mp hc) h
  exact String.toList_inj.mp hchars

/-- `str.encode()` accepts every string without a surrogate. -/
def encodable (s : PyStr) : Bool := s.all fun c => decide (c < 0xD800) || decide (0xDFFF < c)

inductive ConnectorProvider where
  | google
  | microsoft
  deriving DecidableEq, Repr

def ConnectorProvider.value : ConnectorProvider → String
  | .google => "google"
  | .microsoft => "microsoft"

/-- The exceptions that leave a connector operation. -/
inductive Failure where
  | connectorError (message : String)
  | invalidGrant (message : String)
  | missingRefreshToken (message : String)
  | connectorCallError (message : String)
  | capabilityError (message : String)
  | providerResponse (statusCode : Nat)
  | providerUnavailable (message : String)
  | httpError (className : String)
  | cryptoError (message : String)
  | unicodeEncodeError
  | unicodeDecodeError
  | valueError (className : String)
  | typeError
  | attributeError
  | overflowError
  | recursionError
  | databaseError
  | http (status : Nat) (detail : String)
  deriving DecidableEq, Repr

/-- `exc.__class__.__name__`. -/
def Failure.className : Failure → String
  | .connectorError _ => "ConnectorError"
  | .invalidGrant _ => "InvalidGrantError"
  | .missingRefreshToken _ => "MissingRefreshTokenError"
  | .connectorCallError _ => "ConnectorCallError"
  | .capabilityError _ => "CapabilityError"
  | .providerResponse _ => "ProviderResponseError"
  | .providerUnavailable _ => "ProviderUnavailable"
  | .httpError className => className
  | .cryptoError _ => "CryptoError"
  | .unicodeEncodeError => "UnicodeEncodeError"
  | .unicodeDecodeError => "UnicodeDecodeError"
  | .valueError className => className
  | .typeError => "TypeError"
  | .attributeError => "AttributeError"
  | .overflowError => "OverflowError"
  | .recursionError => "RecursionError"
  | .databaseError => "StaleDataError"
  | .http _ _ => "HTTPException"

/-- The three exceptions for which `refresh_connection` keeps a `last_error`
and that the refresh beat catches. -/
def Failure.transient : Failure → Bool
  | .providerResponse _ => true
  | .providerUnavailable _ => true
  | .httpError _ => true
  | _ => false

/-- `ProviderResponseError.retryable`. -/
def retryable (statusCode : Nat) : Bool := statusCode == 429 || decide (500 ≤ statusCode)

/-! ### JSON -/

/-- A float as `int()` sees it. -/
inductive PyFloat where
  | finite (truncated : Int)
  | infinite
  | nan
  deriving DecidableEq, Repr

inductive Json where
  | null
  | bool (value : Bool)
  | int (value : Int)
  | float (value : PyFloat)
  | str (value : PyStr)
  | arr (items : List Json)
  | obj (fields : List (PyStr × Json))

/-- `dict.get`: of a repeated key the last value counts. -/
def get? (fields : List (PyStr × Json)) (key : String) : Option Json :=
  (fields.reverse.find? fun field => field.1 == py key).map (·.2)

/-- The content of a response as `response.json()` finds it: a value, bytes that
are no JSON (a subclass of `ValueError` is raised), or a value nested beyond the
recursion limit. -/
inductive Body where
  | json (value : Json)
  | invalid (className : String)
  | tooDeep

def Body.load : Body → Except Failure Json
  | .json value => .ok value
  | .invalid className => .error (.valueError className)
  | .tooDeep => .error .recursionError

structure Response where
  statusCode : Nat
  body : Body

/-- What `httpx` brings back: a response, or an exception of a subclass of
`httpx.HTTPError`. -/
inductive HttpAnswer where
  | response (response : Response)
  | transportError (className : String)

/-! ### `int()` -/

/-- The white space that `int()` strips. -/
def isSpace (c : Nat) : Bool :=
  (decide (9 ≤ c) && decide (c ≤ 13)) || c == 32 || c == 0x85 || c == 0xA0 || c == 0x1680 ||
    (decide (0x2000 ≤ c) && decide (c ≤ 0x200A)) || c == 0x2028 || c == 0x2029 ||
    c == 0x202F || c == 0x205F || c == 0x3000

/-- The zeros of the scripts with decimal digits (Unicode category Nd). -/
def decimalZeros : List Nat :=
  [48, 1632, 1776, 1984, 2406, 2534, 2662, 2790, 2918, 3046, 3174, 3302, 3430, 3558, 3664, 3792,
    3872, 4160, 4240, 6112, 6160, 6470, 6608, 6784, 6800, 6992, 7088, 7232, 7248, 42528, 43216,
    43264, 43472, 43504, 43600, 44016, 65296, 66720, 68912, 69734, 69872, 69942, 70096, 70384,
    70736, 70864, 71248, 71360, 71472, 71904, 72016, 72784, 73040, 73120, 73552, 92768, 92864,
    93008, 120782, 120792, 120802, 120812, 120822, 123200, 123632, 124144, 125264, 130032]

def decimalOf (c : Nat) : Option Nat :=
  (decimalZeros.find? fun first => decide (first ≤ c) && decide (c < first + 10)).map (c - ·)

/-- Decimal digits, with at most one underscore between two of them. -/
def digitsOf : PyStr → Option (List Nat)
  | [] => none
  | [c] => (decimalOf c).map ([·])
  | c :: 95 :: rest => do return (← decimalOf c) :: (← digitsOf rest)
  | c :: d :: rest => do return (← decimalOf c) :: (← digitsOf (d :: rest))

def strip (s : PyStr) : PyStr := ((s.dropWhile isSpace).reverse.dropWhile isSpace).reverse

/-- `sys.get_int_max_str_digits()`. -/
def maxStrDigits : Nat := 4300

def unsignedOf (s : PyStr) : Except Failure Nat :=
  match digitsOf s with
  | some digits =>
      if digits.length ≤ maxStrDigits then .ok (digits.foldl (fun n d => 10 * n + d) 0)
      else .error (.valueError "ValueError")
  | none => .error (.valueError "ValueError")

def intOfStr (s : PyStr) : Except Failure Int :=
  match strip s with
  | 43 :: rest => (unsignedOf rest).map fun n => n
  | 45 :: rest => (unsignedOf rest).map fun n => -(n : Int)
  | rest => (unsignedOf rest).map fun n => n

/-- `int(value)` of a JSON value. -/
def intOf : Json → Except Failure Int
  | .int value => .ok value
  | .bool value => .ok (if value then 1 else 0)
  | .float (.finite truncated) => .ok truncated
  | .float .infinite => .error .overflowError
  | .float .nan => .error (.valueError "ValueError")
  | .str value => intOfStr value
  | .null => .error .typeError
  | .arr _ => .error .typeError
  | .obj _ => .error .typeError

example : intOfStr (py " -3_600 ") = .ok (-3600) := by decide

example : intOfStr (py "1__0") = .error (.valueError "ValueError") := by decide

/-! ### The token response -/

structure TokenBundle where
  accessToken : PyStr
  expiresIn : Int
  refreshToken : Option PyStr
  scopes : List PyStr
  deriving DecidableEq

/-- The white space of `str.split()`. -/
def isSplitSpace (c : Nat) : Bool := isSpace c || (decide (28 ≤ c) && decide (c ≤ 31))

/-- `str.split()`. -/
def split (s : PyStr) : List PyStr := (s.splitOnP isSplitSpace).filter fun word => !word.isEmpty

/-- `str(raw.get("error", ""))` when it is the text of a string, and the empty
text otherwise: the rendering of another value is no error code. -/
def errorCode : Json → PyStr
  | .obj fields =>
      match get? fields "error" with
      | some (.str code) => code
      | _ => []
  | _ => []

/-- The branch of `_parse_token_response` for a status other than 200. -/
def parseErrorResponse (provider : ConnectorProvider) (response : Response) : Failure :=
  match response.body.load with
  | .error .recursionError => .recursionError
  | .error _ => .providerResponse response.statusCode
  | .ok raw =>
      if errorCode raw = py "invalid_grant" then
        .invalidGrant s!"Refresh token invalidé par {provider.value} (invalid_grant)."
      else .providerResponse response.statusCode

def optionalText : Option Json → Option PyStr
  | some (.str text) => some text
  | _ => none

def scopesOf (fields : List (PyStr × Json)) : List PyStr :=
  match get? fields "scope" with
  | some (.str scope) => split scope
  | _ => []

/-- The fields of a 200 answer. -/
def parseBundle (provider : ConnectorProvider) (fields : List (PyStr × Json)) :
    Except Failure TokenBundle :=
  match optionalText (get? fields "access_token") with
  | none | some [] =>
      .error (.connectorError s!"Réponse token de {provider.value} sans access_token.")
  | some accessToken => do
      let expiresIn ← intOf ((get? fields "expires_in").getD (.int 3600))
      return ⟨accessToken, expiresIn, optionalText (get? fields "refresh_token"),
        scopesOf fields⟩

/-- `_parse_token_response`. -/
def parseTokenResponse (provider : ConnectorProvider) (response : Response) :
    Except Failure TokenBundle :=
  if response.statusCode ≠ 200 then .error (parseErrorResponse provider response)
  else
    match response.body.load with
    | .error e => .error e
    | .ok (.obj fields) => parseBundle provider fields
    | .ok _ => .error .attributeError

/-- What one POST to the token endpoint returns or raises. -/
def readAnswer (provider : ConnectorProvider) : HttpAnswer → Except Failure TokenBundle
  | .transportError className => .error (.httpError className)
  | .response response => parseTokenResponse provider response

abbrev Sealed := List Nat

/-- The `KeyProvider` protocol on the text of tokens.  UTF-8 is a bijection
between the strings `encode` accepts and their encodings, so the text stands
for its bytes. -/
structure KeyProvider where
  encrypt : Nat → PyStr → Sealed
  decrypt : Sealed → Except Failure PyStr
  decrypt_encrypt : ∀ nonce text, encodable text → decrypt (encrypt nonce text) = .ok text
  encrypt_ne_nil : ∀ nonce text, encrypt nonce text ≠ []
  decrypt_nil : ∃ message, decrypt [] = .error (.cryptoError message)

/-- `encrypt_token`, with the nonce it draws. -/
def encryptToken (keys : KeyProvider) (nonce : Nat) (token : PyStr) : Except Failure Sealed :=
  if encodable token then .ok (keys.encrypt nonce token) else .error .unicodeEncodeError

theorem encryptToken_eq_ok {keys : KeyProvider} {nonce : Nat} {token : PyStr} {bytes : Sealed}
    (h : encryptToken keys nonce token = .ok bytes) :
    bytes ≠ [] ∧ keys.decrypt bytes = .ok token := by
  unfold encryptToken at h
  split at h
  · rename_i hencodable
    cases h
    exact ⟨keys.encrypt_ne_nil nonce token, keys.decrypt_encrypt nonce token hencodable⟩
  · cases h

/-- A key provider with the frame of the program's: twelve bytes of nonce, the
text, sixteen bytes of tag. -/
def framedKeys : KeyProvider where
  encrypt nonce text := List.replicate 12 nonce ++ text ++ List.replicate 16 0
  decrypt bytes :=
    if bytes.length ≤ 12 then .error (.cryptoError "Données chiffrées tronquées.")
    else if bytes.length < 28 then
      .error (.cryptoError "Déchiffrement impossible : clé invalide ou données corrompues.")
    else .ok ((bytes.drop 12).take (bytes.length - 28))
  decrypt_encrypt nonce text _ := by
    have hlength : (List.replicate 12 nonce ++ text ++ List.replicate 16 0).length =
        text.length + 28 := by
      simp only [List.length_append, List.length_replicate]
      omega
    rw [hlength, if_neg (by omega), if_neg (by omega)]
    simp
  encrypt_ne_nil nonce text := by simp
  decrypt_nil := ⟨_, rfl⟩

end Socle.TokenExchange
