import Mathlib.Data.List.Basic

namespace Filehost.Upload

/-! # Content types -/

/-- A parsed media type: the parser lowers its names and keeps the text of its
parameters, from the first semicolon on. -/
structure Mime where
  type : List Char
  subtype : List Char
  suffix : Option (List Char)
  params : List Char
  lowered : ∀ char ∈ type ++ '/' :: subtype ++ suffix.elim [] ('+' :: ·), char.toLower = char
  named : ∀ char ∈ type ++ '/' :: subtype ++ suffix.elim [] ('+' :: ·), char ≠ ';'
  led : params = [] ∨ ∃ rest, params = ';' :: rest

def Mime.essence (mime : Mime) : List Char :=
  mime.type ++ '/' :: mime.subtype ++ mime.suffix.elim [] ('+' :: ·)

def Mime.text (mime : Mime) : List Char := mime.essence ++ mime.params

def octetStream : List Char := "application/octet-stream".toList

def textType : List Char := "text".toList

def plainText : List Char := "text/plain".toList

def Mime.isOctetStream (mime : Mime) : Bool := mime.text = octetStream

structure HashedTempFile where
  content : List UInt8
  contentType : Option Mime
  detectedContentType : Option Mime
  fileName : Option (List Char)

/-- The declared type, or a guess from the name where that is `octet-stream` or
missing. -/
def determineContentType (fromPath : List Char → Option Mime) (file : HashedTempFile)
    (originalName : List Char) : List Char × Option (List Char) :=
  let guessed :=
    let guess := fromPath originalName
    ((guess.map Mime.text).getD octetStream, guess.map Mime.subtype)
  match file.contentType with
  | some declared =>
      if !declared.isOctetStream then (declared.text, some declared.subtype) else guessed
  | none => guessed

def Mime.isSpecific (detected : Mime) : Bool :=
  detected.type ≠ textType && !detected.isOctetStream

def reconcileContentTypeForDb (detectedContentType : Option Mime) (contentType : List Char) :
    List Char :=
  match detectedContentType with
  | none => contentType
  | some detected =>
      if detected.isSpecific then detected.text
      else if detected.type = textType && contentType = octetStream then plainText
      else contentType

/-- A stored type without its parameters, and without regard to case. -/
def essenceOf (text : List Char) : List Char :=
  (text.takeWhile (· ≠ ';')).map Char.toLower

theorem Mime.lower_essence (mime : Mime) : mime.essence.map Char.toLower = mime.essence :=
  (List.map_congr_left mime.lowered).trans (List.map_id _)

theorem Mime.essenceOf_text (mime : Mime) : essenceOf mime.text = mime.essence := by
  have named : ∀ char ∈ mime.essence, decide (char ≠ ';') = true :=
    fun char member => decide_eq_true (mime.named char member)
  have kept : mime.text.takeWhile (· ≠ ';') = mime.essence := by
    rw [Mime.text, List.takeWhile_append_of_pos named]
    rcases mime.led with none | ⟨rest, params⟩
    · simp [none]
    · simp [params]
  rw [essenceOf, kept, mime.lower_essence]

theorem Mime.lower_text (mime : Mime) (plain : mime.params = []) :
    mime.text.map Char.toLower = mime.essence := by
  rw [Mime.text, plain, List.append_nil, mime.lower_essence]

end Filehost.Upload
