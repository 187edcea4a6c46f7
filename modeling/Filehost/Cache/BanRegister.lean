import Filehost.Admin.BanCommands
import Filehost.Cache.BanCache

namespace Filehost.Cache

open Filehost.Admin Filehost.Data Filehost.Data.Registers Filehost.Database Filehost.Ip

/-! # What the bans do

The checks of an upload, on what the cache fetches after any requests and commands. -/

/-- The entries of a kind that stand. -/
def Standing {Row : Type} (keyOf : Row → List Nat)
    (change : BanStatement → Option (TextChange Row)) (statements : List BanStatement) (row : Row) :
    Prop :=
  Stands keyOf (statements.filterMap change) row

variable {matcher : BanMatcher} {start tables : BanTables} {statements : List BanStatement} {now : ℚ}

theorem run_isHashBanned_iff
    (run : (banStatementSystem matcher.collation).Run start statements tables)
    (unbanned : Unbanned start) (hash : List UInt8) :
    isHashBanned matcher (fetchBans matcher .hash () tables now) hash = true ↔
      ∃ reason, Standing BannedFileHash.key BanStatement.hashChange statements ⟨hash, reason⟩ := by
  change List.contains (tables.hashes.map BannedFileHash.hash) hash = true ↔ _
  rw [List.contains_iff_mem, List.mem_map]
  have keeps := run_hashes run unbanned
  constructor
  · intro banned
    obtain ⟨row, member, rfl⟩ := banned
    exact ⟨row.reason, (keeps.mem_iff row).mp member⟩
  · intro banned
    obtain ⟨reason, stands⟩ := banned
    exact ⟨⟨hash, reason⟩, (keeps.mem_iff _).mpr stands, rfl⟩

theorem run_isFilenameBanned_iff
    (run : (banStatementSystem matcher.collation).Run start statements tables)
    (unbanned : Unbanned start) (filename : List Char) :
    isFilenameBanned matcher (fetchBans matcher .filename () tables now) filename = true ↔
      ∃ row regex, Standing (BannedFilename.key matcher.collation)
          (BanStatement.filenameChange matcher.collation) statements row ∧
        matcher.compileFilenamePattern row.pattern = some regex ∧
        matcher.isMatch regex filename = true := by
  change List.any (tables.filenames.filterMap _) _ = true ↔ _
  rw [List.any_eq_true]
  have keeps := run_filenames run unbanned
  constructor
  · intro banned
    obtain ⟨regex, listed, matched⟩ := banned
    obtain ⟨row, member, compiled⟩ := List.mem_filterMap.mp listed
    exact ⟨row, regex, (keeps.mem_iff row).mp member, compiled, matched⟩
  · intro banned
    obtain ⟨row, regex, stands, compiled, matched⟩ := banned
    exact ⟨regex, List.mem_filterMap.mpr ⟨row, (keeps.mem_iff row).mpr stands, compiled⟩, matched⟩

theorem run_isUserAgentBanned_iff
    (run : (banStatementSystem matcher.collation).Run start statements tables)
    (unbanned : Unbanned start) (userAgent : List Char) :
    isUserAgentBanned matcher (fetchBans matcher .userAgent () tables now) userAgent = true ↔
      ∃ row, Standing (BannedUserAgent.key matcher.collation)
          (BanStatement.userAgentChange matcher.collation) statements row ∧
        matcher.toLowercase row.pattern <:+: matcher.toLowercase userAgent := by
  change List.any (tables.userAgents.map _) _ = true ↔ _
  rw [List.any_map, List.any_eq_true]
  have keeps := run_userAgents run unbanned
  constructor
  · intro banned
    obtain ⟨row, member, inside⟩ := banned
    exact ⟨row, (keeps.mem_iff row).mp member, of_decide_eq_true inside⟩
  · intro banned
    obtain ⟨row, stands, inside⟩ := banned
    exact ⟨row, (keeps.mem_iff row).mpr stands, decide_eq_true inside⟩

/-- After any requests and commands a check that fetches anew answers by the
entries that stand. -/
theorem run_enforces {text : CliText} {events : List BanEvent}
    (run : (banSystem text matcher.collation).Run start events tables) (unbanned : Unbanned start)
    (hash : List UInt8) (filename userAgent : List Char) :
    (isHashBanned matcher (fetchBans matcher .hash () tables now) hash = true ↔
      ∃ reason, Standing BannedFileHash.key BanStatement.hashChange (Admin.statements text events)
        ⟨hash, reason⟩) ∧
    (isFilenameBanned matcher (fetchBans matcher .filename () tables now) filename = true ↔
      ∃ row regex, Standing (BannedFilename.key matcher.collation)
          (BanStatement.filenameChange matcher.collation) (Admin.statements text events) row ∧
        matcher.compileFilenamePattern row.pattern = some regex ∧
        matcher.isMatch regex filename = true) ∧
    (isUserAgentBanned matcher (fetchBans matcher .userAgent () tables now) userAgent = true ↔
      ∃ row, Standing (BannedUserAgent.key matcher.collation)
          (BanStatement.userAgentChange matcher.collation) (Admin.statements text events) row ∧
        matcher.toLowercase row.pattern <:+: matcher.toLowercase userAgent) := by
  have executed := run_statements run
  exact ⟨run_isHashBanned_iff executed unbanned hash,
    run_isFilenameBanned_iff executed unbanned filename,
    run_isUserAgentBanned_iff executed unbanned userAgent⟩

/-- A pattern that stands for its second reason. -/
theorem bannedAgain_enforced :
    isFilenameBanned plainMatcher
        (fetchBans plainMatcher .filename () bannedAgainTables 0) ['a'] = true ↔
      ∃ row regex, Standing (BannedFilename.key .binary) (BanStatement.filenameChange .binary)
          (Admin.statements plainText bannedAgain) row ∧
        plainMatcher.compileFilenamePattern row.pattern = some regex ∧
        plainMatcher.isMatch regex ['a'] = true :=
  (@run_enforces plainMatcher _ _ 0 _ _ bannedAgain_run unbanned_empty [] ['a'] []).2.1

end Filehost.Cache
