import Mathlib.Data.List.Infix

namespace Filehost.Http

/-! # Links and the pages that carry them -/

structure TextResponse where
  status : Nat
  html : Bool
  body : List Char
deriving DecidableEq

/-- The reason phrases of the statuses the handlers answer with. -/
def canonicalReason : Nat → String
  | 403 => "Forbidden"
  | 404 => "Not Found"
  | 428 => "Precondition Required"
  | 429 => "Too Many Requests"
  | _ => "Internal Server Error"

def statusText (status : Nat) : List Char :=
  Nat.toDigits 10 status ++ ' ' :: (canonicalReason status).toList

def errorPage (status : Nat) (message : List Char) : TextResponse where
  status := status
  html := false
  body := statusText status ++ ' ' :: message

def hexDigitUpper (digit : Nat) : Char := (Nat.digitChar digit).toUpper

def percentEncodeByte (byte : UInt8) : List Char :=
  ['%', hexDigitUpper (byte.toNat / 16), hexDigitUpper (byte.toNat % 16)]

/-- The characters that `PATH_SEGMENT` leaves alone. -/
def keptInPathSegment (char : Char) : Bool :=
  char.isAlphanum || char = '-' || char = '.' || char = '_' || char = '~'

def utf8PercentEncode (text : List Char) : List Char :=
  text.flatMap fun char =>
    if keptInPathSegment char then [char]
    else (String.utf8EncodeChar char).flatMap percentEncodeByte

def replaceChar (original : Char) (replacement : List Char) (text : List Char) : List Char :=
  text.flatMap fun char => if char = original then replacement else [char]

def escapeHtml (text : List Char) : List Char :=
  replaceChar '\'' "&#039;".toList
    (replaceChar '"' "&quot;".toList
      (replaceChar '>' "&gt;".toList
        (replaceChar '<' "&lt;".toList (replaceChar '&' "&amp;".toList text))))

def linkTo (baseUrl slug : List Char) : List Char := baseUrl ++ utf8PercentEncode slug

def anchorEnd : List Char := "</a></pre>\n".toList

def anchorTo (lead url : List Char) : List Char :=
  "<pre>".toList ++ lead ++ " <a href=\"".toList ++ url ++ "\">".toList ++ escapeHtml url ++
    anchorEnd

def formatLink (formatted : Bool) (url : List Char) : List Char :=
  if formatted then anchorTo "Access your file here:".toList url else url ++ ['\n']

def formatLinks (links : List (List Char)) (formatted : Bool) : TextResponse where
  status := 200
  html := formatted
  body := links.flatMap (formatLink formatted)

def captchaUrl (baseUrl : List Char) : List Char := baseUrl ++ "captcha".toList

def nextParameter : List Char := "next".toList

/-- Where a browser that asks for a file solves its challenge first. -/
def captchaLocation (baseUrl slug : List Char) : List Char :=
  captchaUrl baseUrl ++ '?' :: nextParameter ++ '=' :: utf8PercentEncode slug

def challengeMessage (action : List Char) : List Char :=
  "Please verify you're not a script before ".toList ++ action ++ [':']

def challengeRequiredResponse (baseUrl action : List Char) (formatted : Bool) : TextResponse :=
  let url := captchaUrl baseUrl
  if formatted then ⟨428, true, anchorTo (challengeMessage action) url⟩
  else errorPage 428 (challengeMessage action ++ ' ' :: url)

theorem formatLink_infix_formatLinks {links : List (List Char)} {url : List Char}
    (member : url ∈ links) (formatted : Bool) :
    formatLink formatted url <:+: (formatLinks links formatted).body := by
  obtain ⟨before, after, rfl⟩ := List.append_of_mem member
  refine ⟨before.flatMap (formatLink formatted), after.flatMap (formatLink formatted), ?_⟩
  simp [formatLinks]

theorem newline_mem_anchorEnd : '\n' ∈ anchorEnd := by decide

theorem newline_mem_formatLink (formatted : Bool) (url : List Char) :
    '\n' ∈ formatLink formatted url := by
  cases formatted with
  | false => simp [formatLink]
  | true => exact List.mem_append_right _ newline_mem_anchorEnd

/-- A page without a line break carries no link. -/
theorem formatLink_not_infix {body : List Char} (oneLine : '\n' ∉ body) (formatted : Bool)
    (url : List Char) : ¬formatLink formatted url <:+: body := by
  intro carried
  exact oneLine (carried.subset (newline_mem_formatLink formatted url))

end Filehost.Http
