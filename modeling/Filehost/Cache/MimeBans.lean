import Filehost.Cache.BanCache
import Filehost.Upload.ContentType

namespace Filehost.Cache

open Filehost.Admin Filehost.Database Filehost.Upload

/-! # Bans of media types

The handlers keep a list of lowered types, and an upload's type is looked up in it
as the text the parser keeps, parameters included. -/

def lowered (text : List Char) : List Char := text.map Char.toLower

def Printable (text : List Char) : Prop := ∀ char ∈ text, 33 ≤ char.toNat ∧ char.toNat ≤ 126

/-- A type without parameters, as an admin bans it.  It fits its column, which would cut it. -/
def TypeName (text : List Char) : Prop := Printable text ∧ ';' ∉ text ∧ text.length ≤ 255

instance (text : List Char) : Decidable (TypeName text) :=
  @instDecidableAnd _ _ (List.decidableBAll _ text) inferInstance

/-- What the standard library and the database make of printable ASCII.  The case of
a text's front does not depend on what follows it. -/
structure BanMatcher.LowersAscii (matcher : BanMatcher) : Prop where
  toLowercase_ascii : ∀ text, Printable text → matcher.toLowercase text = lowered text
  toLowercase_front : ∀ text rest, Printable text →
    lowered text <+: matcher.toLowercase (text ++ rest)
  lower_ascii : ∀ text, Printable text → matcher.collation.lower text = lowered text
  equal_lowered : ∀ left right, Printable left → Printable right →
    (matcher.collation.equal (lowered left) (lowered right) = true ↔ lowered left = lowered right)

/-- The tables after requests to the admin server, some of which may be refused. -/
def tablesAfter (matcher : BanMatcher) (tables : BanTables) (handlers : List BanHandler) :
    BanTables :=
  handlers.foldl (fun tables handler =>
    (runBanHandler matcher.toRequestText matcher.collation tables handler).toOption.getD tables)
    tables

/-- The types that stand banned after another request. -/
def standingAfter (types : List (List Char)) : BanHandler → List (List Char)
  | .addBannedMime mime => mime :: types
  | .removeBannedMime mime => types.filter fun type => lowered type ≠ lowered mime
  | _ => types

/-- The types added, less those removed since. -/
def standingTypes (handlers : List BanHandler) : List (List Char) :=
  handlers.foldl standingAfter []

def BanHandler.namesType : BanHandler → Prop
  | .addBannedMime mime => TypeName mime
  | .removeBannedMime mime => TypeName mime
  | _ => True

/-- The type of an upload, without its parameters and its case, stands banned. -/
def Banned (handlers : List BanHandler) (mime : Mime) : Prop :=
  ∃ type ∈ standingTypes handlers, lowered type = lowered mime.essence

/-! ## The list of banned types -/

/-- The rows are the types that stand, lowered. -/
structure Lists (rows types : List (List Char)) : Prop where
  named : ∀ type ∈ types, TypeName type
  row_iff : ∀ row, row ∈ rows ↔ ∃ type ∈ types, lowered type = row

variable {matcher : BanMatcher} {tables : BanTables} {types : List (List Char)}
  {handlers : List BanHandler} {mime : List Char}

theorem toLower_of_ascii {char : Char} (ascii : char.toNat ≤ 126) :
    char.toLower.toNat ≤ 126 ∧ (33 ≤ char.toNat → 33 ≤ char.toLower.toNat) ∧
      char.toLower.toLower = char.toLower ∧ (char.toLower = ';' → char = ';') := by
  have codes : ∀ code ≤ 126, (Char.ofNat code).toLower.toNat ≤ 126 ∧
      (33 ≤ (Char.ofNat code).toNat → 33 ≤ (Char.ofNat code).toLower.toNat) ∧
      (Char.ofNat code).toLower.toLower = (Char.ofNat code).toLower ∧
      ((Char.ofNat code).toLower = ';' → Char.ofNat code = ';') := by decide
  have found := codes char.toNat ascii
  rwa [Char.ofNat_toNat] at found

theorem printable_lowered {text : List Char} (printable : Printable text) :
    Printable (lowered text) := by
  intro char member
  obtain ⟨original, inside, rfl⟩ := List.mem_map.mp member
  have bounds := printable original inside
  obtain ⟨above, below, -⟩ := toLower_of_ascii bounds.2
  exact ⟨below bounds.1, above⟩

theorem lowered_lowered {text : List Char} (printable : Printable text) :
    lowered (lowered text) = lowered text := by
  rw [lowered, lowered, List.map_map]
  apply List.map_congr_left
  intro char member
  exact (toLower_of_ascii (printable char member).2).2.2.1

theorem semicolon_not_mem_lowered {text : List Char} (named : TypeName text) :
    ';' ∉ lowered text := by
  intro member
  obtain ⟨char, inside, same⟩ := List.mem_map.mp member
  exact named.2.1 ((toLower_of_ascii (named.1 char inside).2).2.2.2 same ▸ inside)

/-- What a request writes of a type is the type in lower case. -/
theorem lower_toLowercase (lowers : matcher.LowersAscii) (named : TypeName mime) :
    matcher.collation.lower (matcher.toLowercase mime) = lowered mime := by
  rw [lowers.toLowercase_ascii mime named.1, lowers.lower_ascii _ (printable_lowered named.1),
    lowered_lowered named.1]

theorem Lists.equal_iff (lowers : matcher.LowersAscii) (lists : Lists tables.mimes types)
    (named : TypeName mime) {row : List Char} (member : row ∈ tables.mimes) :
    matcher.collation.equal row (lowered mime) = true ↔ row = lowered mime := by
  obtain ⟨type, standing, rfl⟩ := (lists.row_iff row).mp member
  exact lowers.equal_lowered type mime (lists.named type standing).1 named.1

theorem Lists.added (lowers : matcher.LowersAscii) (lists : Lists tables.mimes types)
    (named : TypeName mime) :
    Lists (tables.insertBannedMime matcher.collation (matcher.toLowercase mime)).mimes
      (mime :: types) := by
  refine ⟨?_, fun row => ?_⟩
  · intro type member
    rcases List.mem_cons.mp member with rfl | member
    · exact named
    · exact lists.named type member
  · simp only [BanTables.insertBannedMime, lower_toLowercase lowers named, insertIgnore,
      List.mem_cons, exists_eq_or_imp]
    rw [← lists.row_iff row]
    split
    · rename_i duplicate
      obtain ⟨found, member, equal⟩ := List.any_eq_true.mp duplicate
      have same := (lists.equal_iff lowers named member).mp equal
      constructor
      · exact .inr
      · rintro (rfl | inside)
        · exact same ▸ member
        · exact inside
    · rw [List.mem_append, List.mem_singleton, or_comm, eq_comm]

theorem Lists.removed (lowers : matcher.LowersAscii) (lists : Lists tables.mimes types)
    (named : TypeName mime) :
    Lists ((tables.deleteBannedMime matcher.collation (matcher.toLowercase mime)).getD tables).mimes
      (types.filter fun type => lowered type ≠ lowered mime) := by
  have kept : ∀ row, row ∈ ((tables.deleteBannedMime matcher.collation
      (matcher.toLowercase mime)).getD tables).mimes ↔
        row ∈ tables.mimes ∧ row ≠ lowered mime := by
    intro row
    simp only [BanTables.deleteBannedMime, lower_toLowercase lowers named]
    cases deleted : deleteWhere (fun row => matcher.collation.equal row (lowered mime))
        tables.mimes with
    | none =>
        have absent := deleteWhere_eq_none deleted
        simp only [Option.map_none, Option.getD_none, ne_eq, iff_self_and]
        rintro member rfl
        have equal := (lists.equal_iff lowers named member).mpr rfl
        rw [absent _ member] at equal
        contradiction
    | some rows =>
        rw [deleteWhere_eq_some deleted]
        simp only [Option.map_some, Option.getD_some, List.mem_filter, Bool.not_eq_true']
        refine and_congr_right fun member => ?_
        rw [← Bool.not_eq_true, lists.equal_iff lowers named member]
  refine ⟨fun type member => lists.named type (List.mem_of_mem_filter member), fun row => ?_⟩
  rw [kept, lists.row_iff]
  constructor
  · rintro ⟨⟨type, standing, rfl⟩, other⟩
    exact ⟨type, List.mem_filter.mpr ⟨standing, decide_eq_true other⟩, rfl⟩
  · rintro ⟨type, member, rfl⟩
    obtain ⟨standing, other⟩ := List.mem_filter.mp member
    exact ⟨⟨type, standing, rfl⟩, of_decide_eq_true other⟩

theorem mimes_of_other {handler : BanHandler} (other : handler.changes ≠ .mime) :
    ((runBanHandler matcher.toRequestText matcher.collation tables handler).toOption.getD
      tables).mimes = tables.mimes := by
  cases ran : runBanHandler matcher.toRequestText matcher.collation tables handler with
  | error error => rfl
  | ok after => exact fetchBans_other ran other.symm () 0

theorem Lists.after (lowers : matcher.LowersAscii) (lists : Lists tables.mimes types)
    {handler : BanHandler} (named : BanHandler.namesType handler) :
    Lists ((runBanHandler matcher.toRequestText matcher.collation tables handler).toOption.getD
      tables).mimes (standingAfter types handler) := by
  cases handler with
  | addBannedMime mime => exact lists.added lowers named
  | removeBannedMime mime =>
      have removed := lists.removed lowers named
      simp only [runBanHandler, respondRemoved]
      cases deleted : tables.deleteBannedMime matcher.collation (matcher.toLowercase mime) with
      | none =>
          rw [deleted] at removed
          exact removed
      | some after =>
          rw [deleted] at removed
          exact removed
  | addBannedIp _ | removeBannedIp _ | addBannedFilename _ _ | removeBannedFilename _
  | addBannedHash _ _ | removeBannedHash _ | addBannedUserAgent _ _ | removeBannedUserAgent _
  | spawnClamdScan _ _ =>
      rw [mimes_of_other (by simp [BanHandler.changes])]
      exact lists

/-- Along any requests the rows are the types that stand. -/
theorem lists_tablesAfter (lowers : matcher.LowersAscii) (lists : Lists tables.mimes types)
    (named : ∀ handler ∈ handlers, BanHandler.namesType handler) :
    Lists (tablesAfter matcher tables handlers).mimes (handlers.foldl standingAfter types) := by
  induction handlers generalizing tables types with
  | nil => exact lists
  | cons handler handlers ih =>
      exact ih (lists.after lowers (named handler (by simp)))
        fun later member => named later (by simp [member])

/-! ## Looking a type up -/

theorem isMimeBanned_iff (rows : List (List Char)) (text : List Char) :
    isMimeBanned matcher rows text = true ↔ matcher.toLowercase text ∈ rows :=
  List.contains_iff_mem

/-- A type without parameters is found exactly when it stands. -/
theorem isMimeBanned_of_plain {mime : Mime} (lowers : matcher.LowersAscii)
    (lists : Lists tables.mimes types) (printable : Printable mime.essence)
    (plain : mime.params = []) :
    isMimeBanned matcher tables.mimes mime.text = true ↔
      ∃ type ∈ types, lowered type = lowered mime.essence := by
  rw [isMimeBanned_iff, Mime.text, plain, List.append_nil, lowers.toLowercase_ascii _ printable,
    lists.row_iff]

/-- A text with parameters has a semicolon in it, and no row has. -/
theorem isMimeBanned_of_params {mime : Mime} (lowers : matcher.LowersAscii)
    (lists : Lists tables.mimes types) (printable : Printable mime.essence)
    (params : mime.params ≠ []) :
    isMimeBanned matcher tables.mimes mime.text = false := by
  obtain ⟨rest, led⟩ := mime.led.resolve_left params
  have front : Printable (mime.essence ++ [';']) := by
    intro char member
    rcases List.mem_append.mp member with member | member
    · exact printable char member
    · rw [List.mem_singleton.mp member]
      decide
  have semicolon : ';' ∈ matcher.toLowercase mime.text := by
    have inside := (lowers.toLowercase_front _ rest front).subset
      (show ';' ∈ lowered (mime.essence ++ [';']) by simp [lowered])
    rwa [List.append_assoc, List.singleton_append, ← led] at inside
  rw [← Bool.not_eq_true, isMimeBanned_iff]
  intro member
  obtain ⟨type, standing, same⟩ := (lists.row_iff _).mp member
  exact semicolon_not_mem_lowered (lists.named type standing) (same ▸ semicolon)

/-- An upload's type is banned as it stands on the list, unless it is banned and has
parameters. -/
theorem mime_ban_by_type_iff (lowers : matcher.LowersAscii) (noMimes : tables.mimes = [])
    (named : ∀ handler ∈ handlers, BanHandler.namesType handler) {mime : Mime}
    (printable : Printable mime.essence) (now : ℚ) :
    (isMimeBanned matcher
        (fetchBans matcher .mime () (tablesAfter matcher tables handlers) now) mime.text = true ↔
      Banned handlers mime) ↔
    (mime.params = [] ∨ ¬Banned handlers mime) := by
  have start : Lists tables.mimes [] := ⟨nofun, by simp [noMimes]⟩
  have lists := lists_tablesAfter lowers start named
  by_cases plain : mime.params = []
  · have found := isMimeBanned_of_plain lowers lists printable plain
    exact iff_of_true found (.inl plain)
  · have missed := isMimeBanned_of_params lowers lists printable plain
    simp only [fetchBans, missed, plain, Bool.false_eq_true, false_iff, false_or]

/-- A matcher for texts of ASCII, with a collation that ignores case. -/
def asciiMatcher : BanMatcher :=
  { plainMatcher with
    toLowercase := lowered
    collation := ⟨fun text => (lowered text).map Char.toNat, lowered⟩ }

theorem asciiMatcher_lowersAscii : asciiMatcher.LowersAscii := by
  refine ⟨fun text _ => rfl, ?_, fun text _ => rfl, ?_⟩
  · intro text rest printable
    exact ⟨lowered rest, List.map_append.symm⟩
  · intro left right leftPrintable rightPrintable
    have codes : Function.Injective (List.map Char.toNat) :=
      List.map_injective_iff.mpr fun _ _ => Char.toNat_inj.mp
    simp only [Collation.equal, asciiMatcher, lowered_lowered leftPrintable,
      lowered_lowered rightPrintable, decide_eq_true_eq]
    exact codes.eq_iff

theorem html_lowered : ∀ char ∈ textType ++ '/' :: "html".toList ++ Option.elim none [] ('+' :: ·),
    char.toLower = char :=
  @of_decide_eq_true _ (List.decidableBAll _ _) rfl

theorem html_named : ∀ char ∈ textType ++ '/' :: "html".toList ++ Option.elim none [] ('+' :: ·),
    char ≠ ';' :=
  @of_decide_eq_true _ (List.decidableBAll _ _) rfl

/-- `text/html`, with the parameters a client declares. -/
def htmlWith (params : List Char) (led : params = [] ∨ ∃ rest, params = ';' :: rest) : Mime where
  type := textType
  subtype := "html".toList
  suffix := none
  params := params
  lowered := html_lowered
  named := html_named
  led := led

/-- A charset lifts the ban. -/
theorem charset_lifts_ban :
    Banned [.addBannedMime "Text/HTML".toList] (htmlWith "; charset=utf-8".toList (.inr ⟨_, rfl⟩)) ∧
      isMimeBanned asciiMatcher
        (fetchBans asciiMatcher .mime ()
          (tablesAfter asciiMatcher noBans [.addBannedMime "Text/HTML".toList]) 0)
        (htmlWith "; charset=utf-8".toList (.inr ⟨_, rfl⟩)).text = false := by
  refine ⟨⟨"Text/HTML".toList, by decide, by decide⟩, by decide⟩

theorem mime_ban_by_type_iff_html :
    isMimeBanned asciiMatcher
        (fetchBans asciiMatcher .mime ()
          (tablesAfter asciiMatcher noBans [.addBannedMime "Text/HTML".toList]) 0)
        (htmlWith [] (.inl rfl)).text = true ↔
      Banned [.addBannedMime "Text/HTML".toList] (htmlWith [] (.inl rfl)) := by
  have html : TypeName "Text/HTML".toList ∧ TypeName (htmlWith [] (.inl rfl)).essence := by
    decide +kernel
  refine (mime_ban_by_type_iff asciiMatcher_lowersAscii rfl ?_ html.2.1 0).mpr (.inl rfl)
  intro handler member
  rw [List.mem_singleton.mp member]
  exact html.1

end Filehost.Cache
