import Filehost.Admin.IpBans
import Filehost.Database.BanStatements

namespace Filehost.Admin

open Filehost.Data Filehost.Data.Registers Filehost.Database Filehost.Ip

/-! # The commands that change bans

The command line changes the tables that the handlers change, by the same statements. -/

/-- The parsers of the commands, and the `Debug` form of a text. -/
structure CliText extends RequestText where
  debug : List Char → List Char

inductive BanCommand where
  | ipAdd (arguments : BanIpAdd)
  | ipRemove (id : Int)
  | filenameAdd (pattern : List Char) (reason : Option (List Char))
  | filenameRemove (pattern : List Char)
  | mimeAdd (mime : List Char)
  | mimeRemove (mime : List Char)
  | hashAdd (hash : List Char) (reason : Option (List Char))
  | hashRemove (hash : List Char)
  | userAgentAdd (pattern : List Char) (reason : Option (List Char))
  | userAgentRemove (pattern : List Char)

variable (text : CliText) (collation : Collation)

def banFilenameAdd (pattern : List Char) (reason : Option (List Char)) (tables : BanTables) :
    Except CliError BanTables :=
  match text.regexError pattern with
  | some error =>
      .error (.message ("invalid regex ".toList ++ text.debug pattern ++ ": ".toList ++ error))
  | none => .ok (tables.insertBannedFilename collation pattern reason)

def banFilenameRemove (pattern : List Char) (tables : BanTables) : Except CliError BanTables :=
  removalResult (tables.deleteBannedFilename collation pattern)
    ("No ban on filename pattern ".toList ++ text.debug pattern ++ ['.'])

def banMimeAdd (mime : List Char) (tables : BanTables) : Except CliError BanTables :=
  .ok (tables.insertBannedMime collation mime)

def banMimeRemove (mime : List Char) (tables : BanTables) : Except CliError BanTables :=
  removalResult (tables.deleteBannedMime collation mime) ("No ban on mime ".toList ++ mime ++ ['.'])

def invalidHash : CliError := .message "Invalid hash (expected lowercase hex)".toList

def banHashAdd (hash : List Char) (reason : Option (List Char)) (tables : BanTables) :
    Except CliError BanTables :=
  match hexDecode hash with
  | none => .error invalidHash
  | some bytes =>
      if bytes.length ≠ 32 then
        .error (.message "Invalid hash length (expected 32-byte BLAKE3)".toList)
      else .ok (tables.insertBannedHash bytes reason)

def banHashRemove (hash : List Char) (tables : BanTables) : Except CliError BanTables :=
  match hexDecode hash with
  | none => .error invalidHash
  | some bytes =>
      removalResult (tables.deleteBannedHash bytes) ("No ban on hash ".toList ++ hash ++ ['.'])

def banUserAgentAdd (pattern : List Char) (reason : Option (List Char)) (tables : BanTables) :
    Except CliError BanTables :=
  .ok (tables.insertBannedUserAgent collation pattern reason)

def banUserAgentRemove (pattern : List Char) (tables : BanTables) : Except CliError BanTables :=
  removalResult (tables.deleteBannedUserAgent collation pattern)
    ("No ban on user agent pattern ".toList ++ text.debug pattern ++ ['.'])

def runBanCommand (tables : BanTables) : BanCommand → Except CliError BanTables
  | .ipAdd arguments => banIpAdd text.toRequestText arguments tables
  | .ipRemove id => banIpRemove id tables
  | .filenameAdd pattern reason => banFilenameAdd text collation pattern reason tables
  | .filenameRemove pattern => banFilenameRemove text collation pattern tables
  | .mimeAdd mime => banMimeAdd collation mime tables
  | .mimeRemove mime => banMimeRemove collation mime tables
  | .hashAdd hash reason => banHashAdd hash reason tables
  | .hashRemove hash => banHashRemove hash tables
  | .userAgentAdd pattern reason => banUserAgentAdd collation pattern reason tables
  | .userAgentRemove pattern => banUserAgentRemove text collation pattern tables

/-! ## Statements -/

/-- The range that an accepted request inserts. -/
def IpBanRequest.statement (text : RequestText) (request : IpBanRequest) : Option BanStatement := do
  let (start, stop) ← request.endpoints
  let banType ← request.banType
  let expires ← match request.expiry with
    | none => some none
    | some time => (text.parseRfc3339 time).map some
  if sameFamily start stop then
    match request with
    | .api body => some (.insertBannedIp start stop body.reason expires body.blacklistId banType)
    | .cli arguments => some (.insertBannedIp start stop arguments.reason expires none banType)
  else none

def filenameInsert (text : RequestText) (pattern : List Char) (reason : Option (List Char)) :
    Option BanStatement :=
  match text.regexError pattern with
  | some _ => none
  | none => some (.insertBannedFilename pattern reason)

def hashInsert (hash : List Char) (reason : Option (List Char)) : Option BanStatement :=
  (hexDecode hash).bind fun bytes =>
    if bytes.length ≠ 32 then none else some (.insertBannedHash bytes reason)

/-- The server lowers a type before the database does. -/
def BanHandler.statement (text : RequestText) : BanHandler → Option BanStatement
  | .addBannedIp body => (IpBanRequest.api body).statement text
  | .removeBannedIp id => some (.deleteBannedIp id)
  | .addBannedFilename pattern reason => filenameInsert text pattern reason
  | .removeBannedFilename pattern => some (.deleteBannedFilename pattern)
  | .addBannedMime mime => some (.insertBannedMime (text.toLowercase mime))
  | .removeBannedMime mime => some (.deleteBannedMime (text.toLowercase mime))
  | .addBannedHash hash reason => hashInsert hash reason
  | .removeBannedHash hash => (hexDecode hash).map .deleteBannedHash
  | .addBannedUserAgent pattern reason => some (.insertBannedUserAgent pattern reason)
  | .removeBannedUserAgent pattern => some (.deleteBannedUserAgent pattern)
  | .spawnClamdScan hash name => some (.insertBannedHash hash (some ("clamd: ".toList ++ name)))

def BanCommand.statement (text : RequestText) : BanCommand → Option BanStatement
  | .ipAdd arguments => (IpBanRequest.cli arguments).statement text
  | .ipRemove id => some (.deleteBannedIp id)
  | .filenameAdd pattern reason => filenameInsert text pattern reason
  | .filenameRemove pattern => some (.deleteBannedFilename pattern)
  | .mimeAdd mime => some (.insertBannedMime mime)
  | .mimeRemove mime => some (.deleteBannedMime mime)
  | .hashAdd hash reason => hashInsert hash reason
  | .hashRemove hash => (hexDecode hash).map .deleteBannedHash
  | .userAgentAdd pattern reason => some (.insertBannedUserAgent pattern reason)
  | .userAgentRemove pattern => some (.deleteBannedUserAgent pattern)

inductive BanEvent where
  | api (handler : BanHandler)
  | cli (command : BanCommand)

def BanEvent.statement : BanEvent → Option BanStatement
  | .api handler => handler.statement text.toRequestText
  | .cli command => command.statement text.toRequestText

/-- A request or a command that ends in an error leaves the tables as they are. -/
def BanEvent.run (tables : BanTables) : BanEvent → BanTables
  | .api handler =>
      (runBanHandler text.toRequestText collation tables handler).toOption.getD tables
  | .cli command => (runBanCommand text collation tables command).toOption.getD tables

def banSystem : System BanTables BanEvent where
  enabled _ event := ∀ statement, event.statement text = some statement →
    statement.fits collation = true
  next tables event := event.run text collation tables

section Refinement

variable {text : CliText} {collation : Collation} {tables : BanTables}

/-- The tables after at most one statement. -/
def ran (collation : Collation) (tables : BanTables) (statement : Option BanStatement) : BanTables :=
  statement.elim tables fun statement => statement.run collation tables

theorem respondRemoved_getD (remaining : Option BanTables) :
    (respondRemoved remaining).toOption.getD tables = remaining.getD tables := by
  cases remaining <;> rfl

theorem removalResult_getD (remaining : Option BanTables) (error : List Char) :
    (removalResult remaining error).toOption.getD tables = remaining.getD tables := by
  cases remaining <;> rfl

theorem accept_getD (text : RequestText) (request : IpBanRequest) (tables : BanTables) :
    (request.accept text tables).getD tables = ran collation tables (request.statement text) := by
  cases request with
  | api body =>
      obtain ⟨startIp, endIp, reason, expiresTimestamp, blacklistId, type⟩ := body
      simp only [IpBanRequest.accept, addBannedIp, IpBanRequest.statement, IpBanRequest.endpoints,
        IpBanRequest.banType, IpBanRequest.expiry]
      cases parseIpAddr startIp with
      | none => rfl
      | some start =>
          cases parseIpAddr endIp with
          | none => rfl
          | some stop =>
              rcases expiresTimestamp with _ | time
              · rcases type with _ | _ | _ | type <;> cases related : sameFamily start stop <;>
                  simp [related] <;> rfl
              · cases read : text.parseRfc3339 time <;> rcases type with _ | _ | _ | type <;>
                  cases related : sameFamily start stop <;> simp [related, read] <;> rfl
  | cli arguments =>
      obtain ⟨start, stop, reason, expires, type⟩ := arguments
      simp only [IpBanRequest.accept, banIpAdd, IpBanRequest.statement, IpBanRequest.endpoints,
        IpBanRequest.banType, IpBanRequest.expiry]
      rcases expires with _ | time
      · rcases type with _ | _ | _ | type <;> cases related : sameFamily start stop <;>
          simp [related] <;> rfl
      · cases read : text.parseRfc3339 time <;> rcases type with _ | _ | _ | type <;>
          cases related : sameFamily start stop <;> simp [related, read] <;> rfl

theorem runBanHandler_ran (handler : BanHandler) :
    (runBanHandler text.toRequestText collation tables handler).toOption.getD tables =
      ran collation tables (handler.statement text.toRequestText) := by
  cases handler with
  | addBannedIp body => exact accept_getD text.toRequestText (.api body) tables
  | removeBannedIp id => exact respondRemoved_getD _
  | addBannedFilename pattern reason =>
      simp only [runBanHandler, BanHandler.statement, filenameInsert]
      cases text.regexError pattern <;> rfl
  | removeBannedFilename pattern => exact respondRemoved_getD _
  | removeBannedMime mime => exact respondRemoved_getD _
  | addBannedHash hash reason =>
      simp only [runBanHandler, addBannedHash, BanHandler.statement, hashInsert]
      cases hexDecode hash with
      | none => rfl
      | some bytes =>
          dsimp only [Option.bind_some]
          split <;> rfl
  | removeBannedHash hash =>
      simp only [runBanHandler, removeBannedHash, BanHandler.statement]
      cases hexDecode hash with
      | none => rfl
      | some bytes => exact respondRemoved_getD _
  | removeBannedUserAgent pattern => exact respondRemoved_getD _
  | _ => rfl

theorem runBanCommand_ran (command : BanCommand) :
    (runBanCommand text collation tables command).toOption.getD tables =
      ran collation tables (command.statement text.toRequestText) := by
  cases command with
  | ipAdd arguments => exact accept_getD text.toRequestText (.cli arguments) tables
  | ipRemove id => exact removalResult_getD _ _
  | filenameAdd pattern reason =>
      simp only [runBanCommand, banFilenameAdd, BanCommand.statement, filenameInsert]
      cases text.regexError pattern <;> rfl
  | filenameRemove pattern => exact removalResult_getD _ _
  | mimeRemove mime => exact removalResult_getD _ _
  | hashAdd hash reason =>
      simp only [runBanCommand, banHashAdd, BanCommand.statement, hashInsert]
      cases hexDecode hash with
      | none => rfl
      | some bytes =>
          dsimp only [Option.bind_some]
          split <;> rfl
  | hashRemove hash =>
      simp only [runBanCommand, banHashRemove, BanCommand.statement]
      cases hexDecode hash with
      | none => rfl
      | some bytes => exact removalResult_getD _ _
  | userAgentRemove pattern => exact removalResult_getD _ _
  | _ => rfl

theorem run_ran (event : BanEvent) :
    event.run text collation tables = ran collation tables (event.statement text) := by
  cases event with
  | api handler => exact runBanHandler_ran handler
  | cli command => exact runBanCommand_ran command

/-- Requests and commands are a run of statements. -/
theorem run_statements {start : BanTables} {events : List BanEvent}
    (run : (banSystem text collation).Run start events tables) :
    (banStatementSystem collation).Run start (events.filterMap (BanEvent.statement text)) tables := by
  induction run with
  | start => exact .start
  | @step events tables event _ enabled ih =>
      change (banStatementSystem collation).Run start _ (event.run text collation tables)
      rw [run_ran, List.filterMap_cons]
      cases executed : event.statement text with
      | none => exact ih
      | some statement => exact .step ih (enabled statement executed)

/-! ## The lists -/

def statements (text : CliText) (events : List BanEvent) : List BanStatement :=
  events.filterMap (BanEvent.statement text)

/-- After any requests and commands the lists show the entries that stand: each once, in
order, with the reason it was first added for since it was last removed. -/
theorem run_lists {start : BanTables} {events : List BanEvent}
    (run : (banSystem text collation).Run start events tables) (unbanned : Unbanned start) :
    Shows (BannedFilename.key collation) (tables.listBannedFilenames collation)
        ((statements text events).filterMap (BanStatement.filenameChange collation)) ∧
      Shows collation.weights (tables.listBannedMimes collation)
        ((statements text events).filterMap (BanStatement.mimeChange collation)) ∧
      Shows BannedFileHash.key tables.listBannedHashes
        ((statements text events).filterMap BanStatement.hashChange) ∧
      Shows (BannedUserAgent.key collation) (tables.listBannedUserAgents collation)
        ((statements text events).filterMap (BanStatement.userAgentChange collation)) := by
  have executed := run_statements run
  exact ⟨(run_filenames executed unbanned).shows, (run_mimes executed unbanned).shows,
    (run_hashes executed unbanned).shows, (run_userAgents executed unbanned).shows⟩

end Refinement

def plainText : CliText := ⟨silentText, id⟩

/-- A name is banned, cleared and banned for another reason, from both sides. -/
def bannedAgain : List BanEvent :=
  [.cli (.filenameAdd ['a'] (some ['2'])), .api (.removeBannedFilename ['a']),
    .cli (.filenameAdd ['a'] none), .api (.addBannedFilename ['a'] (some ['1']))]

def bannedAgainTables : BanTables := (banSystem plainText .binary).after .empty bannedAgain

theorem bannedAgain_run : (banSystem plainText .binary).Run .empty bannedAgain bannedAgainTables := by
  refine .of_admits ⟨⟨⟨⟨trivial, ?_⟩, ?_⟩, ?_⟩, ?_⟩ <;> exact fun _ same => by cases same; rfl

theorem bannedAgain_listed :
    bannedAgainTables.listBannedFilenames .binary = [⟨['a'], some ['2']⟩] ∧
      Shows (BannedFilename.key .binary) (bannedAgainTables.listBannedFilenames .binary)
        ((statements plainText bannedAgain).filterMap (BanStatement.filenameChange .binary)) :=
  ⟨rfl, (run_lists bannedAgain_run unbanned_empty).1⟩

end Filehost.Admin
