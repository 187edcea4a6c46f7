import Filehost.Admin.BanHandlers
import Filehost.Cache.Interleaving

namespace Filehost.Cache

open Filehost.Admin Filehost.Data Filehost.Database Filehost.Ip

/-! # The ban cache

One cell for each kind of ban.  Only the cell of IP bans has more than one key. -/

def BanKey : BanKind → Type
  | .ip => IpAddr × BanType
  | .filename | .mime | .hash | .userAgent => Unit

instance : (kind : BanKind) → DecidableEq (BanKey kind)
  | .ip => inferInstanceAs (DecidableEq (IpAddr × BanType))
  | .filename | .mime | .hash | .userAgent => inferInstanceAs (DecidableEq Unit)

/-- The parts of other libraries the cache relies on: compiled patterns and the
clock the database compares expiries with. -/
structure BanMatcher extends RequestText where
  Regex : Type
  compileFilenamePattern : List Char → Option Regex
  isMatch : Regex → List Char → Bool
  collation : Collation
  databaseNow : ℚ → Int

variable (matcher : BanMatcher)

def BanValue : BanKind → Type
  | .ip => Bool
  | .filename => List matcher.Regex
  | .mime => List (List Char)
  | .hash => List (List UInt8)
  | .userAgent => List (List Char)

def fetchBans : (kind : BanKind) → BanKey kind → BanTables → ℚ → BanValue matcher kind
  | .ip, (ip, banType), tables, now => tables.isIpBanned ip banType (matcher.databaseNow now)
  | .filename, _, tables, _ =>
      tables.filenames.filterMap fun row => matcher.compileFilenamePattern row.pattern
  | .mime, _, tables, _ => tables.mimes
  | .hash, _, tables, _ => tables.hashes.map BannedFileHash.hash
  | .userAgent, _, tables, _ => tables.userAgents.map fun row => matcher.toLowercase row.pattern

def isFilenameBanned (patterns : BanValue matcher .filename) (filename : List Char) : Bool :=
  List.any patterns fun pattern => matcher.isMatch pattern filename

def isMimeBanned (mimes : BanValue matcher .mime) (mime : List Char) : Bool :=
  List.contains (α := List Char) mimes (matcher.toLowercase mime)

def isHashBanned (hashes : BanValue matcher .hash) (hash : List UInt8) : Bool :=
  List.contains (α := List UInt8) hashes hash

def isUserAgentBanned (patterns : BanValue matcher .userAgent) (userAgent : List Char) : Bool :=
  List.any patterns fun pattern => decide (pattern <:+: matcher.toLowercase userAgent)

def banBacking (ttl : ℚ) : Backing BanKind BanKey (BanValue matcher) BanTables BanHandler where
  ttl := ttl
  fetch := fetchBans matcher
  execute handler tables :=
    (runBanHandler matcher.toRequestText matcher.collation tables handler).toOption
  invalidates := BanHandler.invalidates

abbrev BanCacheState := CacheState BanKey (BanValue matcher) BanTables BanHandler

variable {matcher}

theorem fetchBans_other {handler : BanHandler} {tables after : BanTables}
    (ran : runBanHandler matcher.toRequestText matcher.collation tables handler = .ok after)
    {kind : BanKind} (other : kind ≠ handler.changes) (key : BanKey kind) (now : ℚ) :
    fetchBans matcher kind key after now = fetchBans matcher kind key tables now := by
  cases handler with
  | addBannedIp body =>
      obtain ⟨startIp, endIp, banType, -, -, -, -, -, rfl⟩ := addBannedIp_eq_ok_iff.mp ran
      cases kind <;> first | rfl | contradiction
  | removeBannedIp id =>
      obtain ⟨rows, -, rfl⟩ := Option.map_eq_some_iff.mp (respondRemoved_eq_ok ran)
      cases kind <;> first | rfl | contradiction
  | addBannedFilename pattern reason =>
      simp only [runBanHandler] at ran
      split at ran
      · contradiction
      · cases ran
        cases kind <;> first | rfl | contradiction
  | removeBannedFilename pattern =>
      obtain ⟨rows, -, rfl⟩ := Option.map_eq_some_iff.mp (respondRemoved_eq_ok ran)
      cases kind <;> first | rfl | contradiction
  | addBannedMime mime =>
      cases ran
      cases kind <;> first | rfl | contradiction
  | removeBannedMime mime =>
      obtain ⟨rows, -, rfl⟩ := Option.map_eq_some_iff.mp (respondRemoved_eq_ok ran)
      cases kind <;> first | rfl | contradiction
  | addBannedHash hash reason =>
      obtain ⟨bytes, rfl⟩ := addBannedHash_eq_ok ran
      cases kind <;> first | rfl | contradiction
  | removeBannedHash hash =>
      obtain ⟨bytes, removed⟩ := removeBannedHash_eq_ok ran
      obtain ⟨rows, -, rfl⟩ := Option.map_eq_some_iff.mp removed
      cases kind <;> first | rfl | contradiction
  | addBannedUserAgent pattern reason =>
      cases ran
      cases kind <;> first | rfl | contradiction
  | removeBannedUserAgent pattern =>
      obtain ⟨rows, -, rfl⟩ := Option.map_eq_some_iff.mp (respondRemoved_eq_ok ran)
      cases kind <;> first | rfl | contradiction
  | spawnClamdScan hash name =>
      cases ran
      cases kind <;> first | rfl | contradiction

/-- Bans changed through the server take effect at once: a check that began
after a handler responded answers from a database read made no earlier than
the handler's commit. -/
theorem banCheck_reads_after_commit {ttl : ℚ} {tables : BanTables} {clock : ℚ}
    {events : List (CacheEvent BanKey BanTables BanHandler)} {state : BanCacheState matcher}
    (run : (cacheSystem (banBacking matcher ttl)).Run (.initial tables clock) events state)
    {checker responder : Nat} {kind : BanKind} {key : BanKey kind} {handler : BanHandler}
    {began committedAt respondedAt : Nat} {answer : Fetched (BanValue matcher kind)}
    (checked : state.tasks checker = .check kind key began (.answered answer))
    (responded : state.tasks responder = .handler handler (.responded committedAt respondedAt))
    (changes : handler.changes = kind) (after : respondedAt < began) :
    committedAt ≤ answer.readAt ∧
      ∃ tables now, ⟨kind, key, answer.readAt, tables, now⟩ ∈ state.reads ∧
        answer.value = fetchBans matcher kind key tables now := by
  obtain rfl : handler.invalidates = kind := handler.invalidates_eq_changes.trans changes
  exact CacheState.answer_reads_after_commit run checked responded after

def plainMatcher : BanMatcher where
  regexError _ := none
  parseRfc3339 _ := none
  toLowercase text := text
  Regex := List Char
  compileFilenamePattern := some
  isMatch pattern filename := pattern == filename
  collation := .binary
  databaseNow _ := 0

def banThenCheck : List (CacheEvent BanKey BanTables BanHandler) :=
  List.replicate 7 (.advance 1) ++ [.beginCheck 1 .hash ()] ++ List.replicate 4 (.advance 0) ++
    [.beginHandler 0 (.spawnClamdScan [0xab] [])]

def noBans : BanTables := ⟨[], 1, [], [], [], []⟩

theorem banCheck_reads_after_commit_hash :
    1 ≤ 10 ∧ ∃ tables now,
      ⟨.hash, (), 10, tables, now⟩ ∈
        ((cacheSystem (banBacking plainMatcher 300)).after (.initial noBans 0) banThenCheck).reads ∧
      [[0xab]] = fetchBans plainMatcher .hash () tables now := by
  have run : (cacheSystem (banBacking plainMatcher 300)).Run (.initial noBans 0) banThenCheck _ :=
    .of_admits (by repeat' constructor)
  have checked : ((cacheSystem (banBacking plainMatcher 300)).after (.initial noBans 0)
      banThenCheck).tasks 1 = .check .hash () 5 (.answered ⟨[[0xab]], 10⟩) := rfl
  have responded : ((cacheSystem (banBacking plainMatcher 300)).after (.initial noBans 0)
      banThenCheck).tasks 0 = .handler (.spawnClamdScan [0xab] []) (.responded 1 4) := rfl
  exact banCheck_reads_after_commit run checked responded rfl (by decide)

end Filehost.Cache
