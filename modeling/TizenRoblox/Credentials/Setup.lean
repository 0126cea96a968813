/-
# The setup script

`setup.sh` puts a token into the credentials file of the user who runs it: from
the keyring of the desktop, from the data directory of another Sober, or typed
in. In the last case it can also copy the file to a TV.

The shell writes the token with `echo`, which adds a newline, and the stub of
libsecret reads the file back as it is, up to the size of its buffer. So the two
agree only on tokens that fill the buffer exactly (`lookup_after_setup_iff`).

Lines that only explain something to the user are left out.
-/

import TizenRoblox.Credentials.Libsecret
import TizenRoblox.Shell.Command
import TizenRoblox.Shell.Text

namespace TizenRoblox.Credentials

open TizenRoblox.Foundation TizenRoblox.Shell TizenRoblox.Shell.Command

/-- What the setup script finds and is told. -/
structure SetupWorld where
  /-- `${HOME}` -/
  home : Bytes
  /-- `${TIZENROBLOX_DIR}` -/
  tizenrobloxDir : Bytes
  umask : BitVec 9
  /-- Whether `secret-tool` is installed. -/
  secretTool : Bool
  /-- What `secret-tool lookup application sober` prints, if it succeeds. -/
  applicationSecret : Option Bytes
  /-- What `secret-tool lookup xdg:schema org.vinegarhq.Sober` prints, if it
  succeeds. -/
  schemaSecret : Option Bytes
  /-- Whether Sober's data directory has `credentials` or `.credentials`. -/
  hasCredentials : Bool
  /-- The first `*.cred` file there. -/
  firstCred : Option StoredFile
  /-- The line typed for the token; none at the end of the input. -/
  tokenLine : Option Bytes
  /-- The line typed for the address of the TV. -/
  tvLine : Option Bytes
  /-- Whether the credentials file can be written. -/
  writeOk : Bool
  chmodOk : Bool
  sshOk : Bool
  scpOk : Bool
  tvUmask : BitVec 9

structure SetupState where
  token : Bytes
  tvIp : Bytes
  disk : Disk
  /-- The files of the TV. -/
  tvDisk : Disk
  /-- The paths written, here and on the TV. -/
  written : List Bytes
  tvWritten : List Bytes
  said : List Bytes

section Definitions

variable (world : SetupWorld)

/-- `CREDS_FILE` -/
def credsFile : Bytes := world.home ++ bytes "/.tizenroblox_creds"

/-- `INSTALL_DIR` -/
def setupInstallDir : Bytes :=
  if world.tizenrobloxDir = [] then bytes "/opt/tizenroblox" else world.tizenrobloxDir

/-- `TV_HOME` -/
def tvHome : Bytes := setupInstallDir world ++ bytes "/data"

/-- Where the file is copied to on the TV. -/
def tvCredsFile : Bytes := tvHome world ++ bytes "/.tizenroblox_creds"

def say (line : Bytes) : Command SetupState := .act fun state =>
  { state with said := state.said ++ [line] }

/-- Write a file: an old one keeps its mode. -/
def putFile (disk : Disk) (path data : Bytes) (mode : BitVec 9) : Disk :=
  Function.update disk path (some ⟨data, ((disk path).map StoredFile.mode).getD mode⟩)

/-- `echo "${TOKEN}" > "${CREDS_FILE}"` -/
def writeToken : Command SetupState := .attempt fun state =>
  if world.writeOk then
    some { state with
      disk := putFile state.disk (credsFile world) (echoOutput state.token)
        (createdMode world.umask)
      written := state.written ++ [credsFile world] }
  else none

/-- `cp "${CRED_FILE}" "${CREDS_FILE}"` -/
def copyCred (file : StoredFile) : Command SetupState := .attempt fun state =>
  if world.writeOk then
    some { state with
      disk := putFile state.disk (credsFile world) file.data (file.mode &&& ~~~world.umask)
      written := state.written ++ [credsFile world] }
  else none

/-- `chmod 600 "${CREDS_FILE}"` -/
def chmodCreds : Command SetupState := .attempt fun state =>
  if world.chmodOk then
    some { state with
      disk := Function.update state.disk (credsFile world)
        ((state.disk (credsFile world)).map fun file => { file with mode := 0o600#9 }) }
  else none

/-- `TOKEN=$(secret-tool … || secret-tool … || true)` -/
def keyringToken : Bytes :=
  commandSubstitution (world.applicationSecret.getD (world.schemaSecret.getD []))

def importedLine : Bytes := bytes "[setup] ✅ Credentials imported from GNOME keyring"

/-- The token of the desktop's keyring; the three turns of the loop are alike. -/
def keyringImport : Command SetupState :=
  .ifThen (.test fun _ => world.secretTool) <|
    .forEach [bytes "org.vinegarhq.Sober", bytes "Sober", bytes "roblox"] fun _ => .block [
      .act fun state => { state with token := keyringToken world },
      .ifThen (.test fun state => state.token ≠ []) <| .block [
        writeToken world,
        chmodCreds world,
        say importedLine,
        .exit 0]]

def dataDirLine : Bytes := bytes "[setup] ✅ Credentials imported from Sober data dir"

/-- The first credentials file of another Sober. -/
def dataDirImport : Command SetupState :=
  .ifThen (.test fun _ => world.hasCredentials) <|
    match world.firstCred with
    | none => .skip
    | some file => .block [
        copyCred world file,
        chmodCreds world,
        say dataDirLine,
        .exit 0]

/-- `read -r`, which fails at the end of the input. -/
def readInto (line : Option Bytes) (store : Bytes → SetupState → SetupState) :
    Command SetupState := .attempt fun state => line.map fun line => store (readLine line) state

def savedLine : Bytes := bytes "[setup] ✅ Token saved to " ++ credsFile world

def skippedLine : Bytes := bytes "[setup] Skipped. You can run this script again later."

/-- The token that is typed in; without one the script ends. -/
def manualEntry : Command SetupState := .block [
  readInto world.tokenLine fun token state => { state with token := token },
  .ifElse (.test fun state => state.token ≠ [])
    (.block [
      writeToken world,
      chmodCreds world,
      say (savedLine world)])
    (.block [
      say skippedLine,
      .exit 0])]

def copiedLine : Bytes := bytes "[setup] ✅ Credentials copied to TV"

/-- `scp` of the credentials file. -/
def scpCreds : Command SetupState := .attempt fun state =>
  if world.scpOk then
    (state.disk (credsFile world)).map fun file =>
      { state with
        tvDisk := putFile state.tvDisk (tvCredsFile world) file.data
          (file.mode &&& ~~~world.tvUmask)
        tvWritten := state.tvWritten ++ [tvCredsFile world] }
  else none

def copyToTv : Command SetupState := .block [
  readInto world.tvLine fun tvIp state => { state with tvIp := tvIp },
  .ifThen (.test fun state => state.tvIp ≠ []) <| .block [
    .attempt fun state => if world.sshOk then some state else none,
    scpCreds world,
    say copiedLine]]

def setup : Command SetupState := .block [
  keyringImport world,
  dataDirImport world,
  manualEntry world,
  copyToTv world]

/-- The state in which the script starts. -/
def setupStart (disk tvDisk : Disk) : SetupState := ⟨[], [], disk, tvDisk, [], [], []⟩

/-- The script has run under `set -e`, from the given disks to this state. -/
def SetupRan (disk tvDisk : Disk) (state : SetupState) : Prop :=
  (setup world true (setupStart disk tvDisk)).state = state

end Definitions

/-! ## What the script stores -/

/-- How a token gets into the script. -/
inductive EntryManner
  | keyring
  | manual
  deriving DecidableEq

section Stored

variable (world : SetupWorld)

/-- The token is what the keyring has, or what the user types where nothing can be
imported. -/
def Entered : EntryManner → Bytes → Prop
  | .keyring, token => world.secretTool = true ∧
      world.applicationSecret.getD (world.schemaSecret.getD []) = token
  | .manual, token => (world.secretTool = true → keyringToken world = []) ∧
      (world.hasCredentials = true → world.firstCred = none) ∧ world.tokenLine = some token

/-- The line that reports that the token is stored. -/
def reportLine : EntryManner → Bytes
  | .keyring => importedLine
  | .manual => savedLine world

/-- The word that `echo` is given. -/
def echoedWord : EntryManner → Bytes → Bytes
  | .keyring, token => token
  | .manual, token => readLine token

variable {world} {token : Bytes} {disk tvDisk : Disk} {state : SetupState}

/-- The files after the token has been written. -/
private def storedDisk (world : SetupWorld) (word : Bytes) (disk : Disk) : Disk :=
  let written := putFile disk (credsFile world) (echoOutput word) (createdMode world.umask)
  Function.update written (credsFile world)
    ((written (credsFile world)).map fun file => { file with mode := 0o600#9 })

private theorem storedDisk_data (word : Bytes) :
    (storedDisk world word disk (credsFile world)).map StoredFile.data =
      some (echoOutput word) := by
  simp [storedDisk, putFile]

/-- With a token in the keyring the script stores that and ends, if it can. -/
private theorem setup_of_keyring (disk tvDisk : Disk) (hnonempty : token ≠ [])
    (hnewline : newline ∉ token) (hnul : nul ∉ token)
    (hentered : Entered world .keyring token) :
    (setup world true (setupStart disk tvDisk)).state.said =
        (if world.writeOk ∧ world.chmodOk then [importedLine] else []) ∧
      (world.writeOk = true → world.chmodOk = true →
        (setup world true (setupStart disk tvDisk)).state.disk = storedDisk world token disk) := by
  obtain ⟨hsecret, htoken⟩ := hentered
  have hkeyring : keyringToken world = token := by
    rw [keyringToken, htoken, commandSubstitution_of_plain hnul hnewline]
  cases hwrite : world.writeOk with
  | false =>
      simp [setup, keyringImport, setupStart, block, seq, ifThen, ifElse, forEach, forFrom, hsecret,
        hkeyring, hnonempty, writeToken, attempt, simple, hwrite, Outcome.state]
  | true =>
      cases hchmod : world.chmodOk <;>
        simp [setup, keyringImport, setupStart, block, seq, ifThen, ifElse, forEach, forFrom,
          hsecret, hkeyring, hnonempty, writeToken, chmodCreds, attempt, simple, hwrite, hchmod,
          Outcome.state, say, exit, storedDisk]

private theorem stored_of_keyring (hnonempty : token ≠ []) (hnewline : newline ∉ token)
    (hnul : nul ∉ token) (hentered : Entered world .keyring token)
    (hran : SetupRan world disk tvDisk state) (hstored : importedLine ∈ state.said) :
    (state.disk (credsFile world)).map StoredFile.data = some (echoOutput token) := by
  subst hran
  obtain ⟨hsaid, hdisk⟩ := setup_of_keyring disk tvDisk hnonempty hnewline hnul hentered
  have hok : world.writeOk = true ∧ world.chmodOk = true := by
    by_contra hnot
    simp [hsaid, hnot] at hstored
  rw [hdisk hok.1 hok.2, storedDisk_data]

/-- Where the keyring has no token, the script goes on as it started. -/
private theorem keyringImport_passes (hsecret : world.secretTool = true → keyringToken world = []) :
    Passes (keyringImport world) true (setupStart disk tvDisk) (setupStart disk tvDisk) := by
  cases htool : world.secretTool with
  | false => exact ⟨0, by simp [keyringImport, ifThen, ifElse, htool]⟩
  | true =>
      exact ⟨0, by simp [keyringImport, ifThen, ifElse, htool, forEach, forFrom, block, seq,
        hsecret htool, setupStart]⟩

private theorem dataDirImport_passes
    (hcred : world.hasCredentials = true → world.firstCred = none) :
    Passes (dataDirImport world) true (setupStart disk tvDisk) (setupStart disk tvDisk) := by
  cases hhas : world.hasCredentials with
  | false => exact ⟨0, by simp [dataDirImport, ifThen, ifElse, hhas]⟩
  | true => exact ⟨0, by simp [dataDirImport, ifThen, ifElse, hhas, hcred hhas]⟩

/-- The state after a typed token has been stored. -/
private def savedState (world : SetupWorld) (token : Bytes) (disk tvDisk : Disk) : SetupState where
  token := readLine token
  tvIp := []
  disk := storedDisk world (readLine token) disk
  tvDisk := tvDisk
  written := [credsFile world]
  tvWritten := []
  said := [savedLine world]

private theorem savedLine_ne_skippedLine : savedLine world ≠ skippedLine := by
  intro heq
  have hbyte := congrArg (·[8]?) heq
  simp only [savedLine] at hbyte
  rw [List.getElem?_append_left (by decide)] at hbyte
  revert hbyte
  decide

/-- A typed token is stored, or the script ends without saying that it is. -/
private theorem manualEntry_cases (hline : world.tokenLine = some token) :
    manualEntry world true (setupStart disk tvDisk) = .done 0 (savedState world token disk tvDisk) ∨
      ∃ status last, manualEntry world true (setupStart disk tvDisk) = .exited status last ∧
        savedLine world ∉ last.said := by
  have hread : ∀ store : Bytes → SetupState → SetupState,
      readInto world.tokenLine store true (setupStart disk tvDisk) =
        .done 0 (store (readLine token) (setupStart disk tvDisk)) :=
    fun store => attempt_eq_done (by rw [hline]; rfl) true
  by_cases hword : readLine token = []
  · refine Or.inr ⟨0,
      { setupStart disk tvDisk with token := readLine token, said := [skippedLine] }, ?_, ?_⟩
    · simp [manualEntry, setupStart, block, seq, readInto, attempt, simple, hline, ifElse, hword,
        say, exit]
    · simpa using savedLine_ne_skippedLine
  · cases hwrite : world.writeOk with
    | false =>
        refine Or.inr ⟨1, { setupStart disk tvDisk with token := readLine token }, ?_, ?_⟩
        · simp [manualEntry, setupStart, block, seq, readInto, attempt, simple, hline, ifElse,
            hword, writeToken, hwrite]
        · simp [setupStart]
    | true =>
        cases hchmod : world.chmodOk with
        | false =>
            refine Or.inr ⟨1, { setupStart disk tvDisk with
              token := readLine token
              disk := putFile disk (credsFile world) (echoOutput (readLine token))
                (createdMode world.umask)
              written := [credsFile world] }, ?_, ?_⟩
            · simp [manualEntry, setupStart, block, seq, readInto, attempt, simple, hline, ifElse,
                hword, writeToken, hwrite, chmodCreds, hchmod]
            · simp [setupStart]
        | true =>
            apply Or.inl
            simp [manualEntry, setupStart, block, seq, readInto, attempt, simple, hline, ifElse,
              hword, writeToken, hwrite, chmodCreds, hchmod, say, savedState, storedDisk]

/-- Copying the file to the TV leaves the user's own files as they are. -/
private theorem preserves_copyToTv (files : Disk) :
    Preserves (fun state : SetupState => state.disk = files) (copyToTv world) := by
  refine preserves_block ⟨preserves_attempt ?_,
    preserves_ifThen preserves_test (preserves_block ?_)⟩
  · intro state next hstate hnext
    obtain ⟨line, _, rfl⟩ := Option.map_eq_some_iff.mp hnext
    exact hstate
  · refine ⟨preserves_attempt ?_, preserves_attempt ?_, preserves_act fun _ hstate => hstate⟩
    · intro state next hstate hnext
      split at hnext
      · cases hnext
        exact hstate
      · cases hnext
    · intro state next hstate hnext
      split at hnext
      · obtain ⟨file, _, rfl⟩ := Option.map_eq_some_iff.mp hnext
        exact hstate
      · cases hnext

private theorem stored_of_manual (hentered : Entered world .manual token)
    (hran : SetupRan world disk tvDisk state) (hstored : savedLine world ∈ state.said) :
    (state.disk (credsFile world)).map StoredFile.data =
      some (echoOutput (readLine token)) := by
  obtain ⟨hsecret, hcred, hline⟩ := hentered
  subst hran
  rw [setup, block_cons_of_passes _ (by simp) (keyringImport_passes hsecret),
    block_cons_of_passes _ (by simp) (dataDirImport_passes hcred)] at hstored ⊢
  rcases manualEntry_cases hline with hdone | ⟨status, last, hexited, hnot⟩
  · rw [block_cons_of_passes _ (by simp) ⟨0, hdone⟩]
    have hfiles := @preserves_copyToTv world (storedDisk world (readLine token) disk) true
      (savedState world token disk tvDisk) rfl
    rw [show block [copyToTv world] = copyToTv world from rfl, hfiles, storedDisk_data]
  · rw [block_cons_of_exited _ hexited] at hstored
    exact absurd hstored hnot

/-- What setup stores of a token is the output of `echo`. -/
theorem stored_of_reported {manner : EntryManner} (hnonempty : token ≠ [])
    (hnewline : newline ∉ token) (hnul : nul ∉ token) (hentered : Entered world manner token)
    (hran : SetupRan world disk tvDisk state) (hstored : reportLine world manner ∈ state.said) :
    (state.disk (credsFile world)).map StoredFile.data =
      some (echoOutput (echoedWord manner token)) := by
  cases manner with
  | keyring => exact stored_of_keyring hnonempty hnewline hnul hentered hran hstored
  | manual => exact stored_of_manual hentered hran hstored

end Stored

/-! ## Where the script writes -/

section Written

variable (world : SetupWorld)

/-- Every path written so far is the credentials file, here or on the TV. -/
def WritesCreds (state : SetupState) : Prop :=
  (∀ path ∈ state.written, path = credsFile world) ∧
    ∀ path ∈ state.tvWritten, path = tvCredsFile world

private theorem preserves_store : Preserves (WritesCreds world) (writeToken world) := by
  apply preserves_attempt
  intro state next hstate hnext
  split at hnext
  · obtain rfl := Option.some.inj hnext
    exact ⟨by simpa [or_imp, forall_and] using hstate.1, hstate.2⟩
  · cases hnext

private theorem preserves_copyCred (file : StoredFile) :
    Preserves (WritesCreds world) (copyCred world file) := by
  apply preserves_attempt
  intro state next hstate hnext
  split at hnext
  · obtain rfl := Option.some.inj hnext
    exact ⟨by simpa [or_imp, forall_and] using hstate.1, hstate.2⟩
  · cases hnext

private theorem preserves_chmodCreds : Preserves (WritesCreds world) (chmodCreds world) := by
  apply preserves_attempt
  intro state next hstate hnext
  split at hnext
  · obtain rfl := Option.some.inj hnext
    exact hstate
  · cases hnext

private theorem preserves_say (line : Bytes) : Preserves (WritesCreds world) (say line) :=
  preserves_act fun _ hstate => hstate

private theorem preserves_readInto (line : Option Bytes)
    {store : Bytes → SetupState → SetupState}
    (hstore : ∀ text state, WritesCreds world state → WritesCreds world (store text state)) :
    Preserves (WritesCreds world) (readInto line store) := by
  apply preserves_attempt
  intro state next hstate hnext
  obtain ⟨text, _, rfl⟩ := Option.map_eq_some_iff.mp hnext
  exact hstore _ state hstate

private theorem preserves_scpCreds : Preserves (WritesCreds world) (scpCreds world) := by
  apply preserves_attempt
  intro state next hstate hnext
  split at hnext
  · obtain ⟨file, _, rfl⟩ := Option.map_eq_some_iff.mp hnext
    exact ⟨hstate.1, by simpa [or_imp, forall_and] using hstate.2⟩
  · cases hnext

private theorem preserves_keyringImport :
    Preserves (WritesCreds world) (keyringImport world) := by
  refine preserves_ifThen preserves_test (preserves_forEach fun schema _ => preserves_block ?_)
  refine ⟨preserves_act fun _ hstate => hstate,
    preserves_ifThen preserves_test (preserves_block ?_)⟩
  exact ⟨preserves_store world, preserves_chmodCreds world, preserves_say world _,
    preserves_exit 0⟩

private theorem preserves_dataDirImport :
    Preserves (WritesCreds world) (dataDirImport world) := by
  refine preserves_ifThen preserves_test ?_
  cases world.firstCred with
  | none => exact preserves_skip
  | some file =>
      exact preserves_block ⟨preserves_copyCred world file, preserves_chmodCreds world,
        preserves_say world _, preserves_exit 0⟩

private theorem preserves_manualEntry : Preserves (WritesCreds world) (manualEntry world) := by
  refine preserves_block ⟨preserves_readInto world _ fun _ _ hstate => hstate,
    preserves_ifElse preserves_test (preserves_block ?_) (preserves_block ?_)⟩
  · exact ⟨preserves_store world, preserves_chmodCreds world, preserves_say world _⟩
  · exact ⟨preserves_say world _, preserves_exit 0⟩

/-- The script writes the credentials file of its user, the one on the TV, and
nothing else. -/
theorem writesCreds_of_ran {disk tvDisk : Disk} {state : SetupState}
    (hran : SetupRan world disk tvDisk state) : WritesCreds world state := by
  have hcopy : Preserves (WritesCreds world) (copyToTv world) := by
    refine preserves_block ⟨preserves_readInto world _ fun _ _ hstate => hstate,
      preserves_ifThen preserves_test (preserves_block ?_)⟩
    refine ⟨preserves_attempt fun state next hstate hnext => ?_, preserves_scpCreds world,
      preserves_say world _⟩
    split at hnext
    · obtain rfl := Option.some.inj hnext
      exact hstate
    · cases hnext
  have hsetup : Preserves (WritesCreds world) (setup world) := by
    exact preserves_block ⟨preserves_keyringImport world, preserves_dataDirImport world,
      preserves_manualEntry world, hcopy⟩
  rw [← hran]
  exact hsetup true _ ⟨by simp [setupStart], by simp [setupStart]⟩

end Written

/-! ## Reading it back -/

theorem echoedWord_sublist (manner : EntryManner) (token : Bytes) :
    (echoedWord manner token).Sublist token := by
  cases manner with
  | keyring => exact List.Sublist.refl token
  | manual => exact readLine_sublist token

/-- The start of `echo`'s output is the token exactly where the word it is given is
the token and fills the buffer. -/
theorem take_echoOutput_iff {word token : Bytes} (hword : word.Sublist token)
    (hnewline : newline ∉ token) (hnonempty : token ≠ []) :
    (echoOutput word).take bufferSize = token ↔
      token.length = bufferSize ∧ isEchoOption token = false ∧ word = token := by
  constructor
  · intro htake
    cases hoption : isEchoOption word with
    | true =>
        rcases echoOutput_of_option hoption with hempty | hline
        · simp [hempty] at htake
          exact absurd htake hnonempty
        · rw [hline] at htake
          exact absurd (htake ▸ by simp [bufferSize] : newline ∈ token) hnewline
    | false =>
        rw [echoOutput_of_word hoption] at htake
        have hlong : bufferSize ≤ word.length := by
          by_contra hshort
          rw [List.take_of_length_le (by simp; omega)] at htake
          exact hnewline (htake ▸ by simp)
        rw [List.take_append_of_le_length hlong] at htake
        have hlength : token.length = bufferSize := by
          rw [← htake, List.length_take, Nat.min_eq_left hlong]
        have hsame : word = token := hword.eq_of_length_le (by omega)
        exact ⟨hlength, hsame ▸ hoption, hsame⟩
  · rintro ⟨hlength, hoption, rfl⟩
    rw [echoOutput_of_word hoption, ← hlength, List.take_left']
    rfl

/-- A token that setup has stored is found again exactly where it fills the buffer
of the lookup, does not look like an option of `echo` and, if it was typed in, has
no blanks at its ends. -/
theorem lookup_after_setup_iff {Key : Type} {world : SetupWorld} {manner : EntryManner}
    {token : Bytes} {disk tvDisk : Disk} {state : SetupState} (hnonempty : token ≠ [])
    (hnewline : newline ∉ token) (hnul : nul ∉ token) (hentered : Entered world manner token)
    (hran : SetupRan world disk tvDisk state) (hstored : reportLine world manner ∈ state.said)
    {reader : Caller} {readerDisk : Disk}
    (hcopy : (readerDisk (credPath reader.home)).map StoredFile.data =
      (state.disk (credsFile world)).map StoredFile.data) (key : Key) :
    (secretPasswordLookupSync reader key readerDisk).map CString.bytes = some token ↔
      token.length = bufferSize ∧ isEchoOption token = false ∧
        (manner = .manual → readLine token = token) := by
  rw [stored_of_reported hnonempty hnewline hnul hentered hran hstored] at hcopy
  obtain ⟨file, hfile, hdata⟩ := Option.map_eq_some_iff.mp hcopy
  have hword := echoedWord_sublist manner token
  have hsame : echoedWord manner token = token ↔ (manner = .manual → readLine token = token) := by
    cases manner <;> simp [echoedWord]
  rw [← hsame, ← take_echoOutput_iff hword hnewline hnonempty]
  by_cases hempty : file.data = []
  · have hnone := (lookup_eq_none_iff reader key readerDisk).mpr fun other hother => by
      rw [hfile, Option.some.injEq] at hother
      exact Or.inl (hother ▸ hempty)
    simp [hnone, ← hdata, hempty, hnonempty.symm]
  · have hplain : nul ∉ file.data := by
      rw [hdata]
      exact nul_notMem_echoOutput fun hmem => hnul (hword.subset hmem)
    rw [lookup_of_noNul reader key hfile hempty hplain, hdata, Option.some.injEq]

/-- A user whose keyring holds the token and whose files can be written. -/
def keyringWorld (token : Bytes) : SetupWorld where
  home := bytes "/root"
  tizenrobloxDir := []
  umask := 0o022#9
  secretTool := true
  applicationSecret := some token
  schemaSecret := none
  hasCredentials := false
  firstCred := none
  tokenLine := none
  tvLine := none
  writeOk := true
  chmodOk := true
  sshOk := false
  scpOk := false
  tvUmask := 0o022#9

/-- The files after setup has imported the token. -/
def importedDisk (token : Bytes) : Disk :=
  (setup (keyringWorld token) true (setupStart (fun _ => none) fun _ => none)).state.disk

/-- A token of three bytes comes back with a newline. -/
theorem newline_after_token :
    Entered (keyringWorld (bytes "abc")) .keyring (bytes "abc") ∧
      importedLine ∈ (setup (keyringWorld (bytes "abc")) true
        (setupStart (fun _ => none) fun _ => none)).state.said ∧
      (secretPasswordLookupSync ⟨some (bytes "/root"), 0#9⟩ ()
        (importedDisk (bytes "abc"))).map CString.bytes = some (bytes "abc\n") := by
  refine ⟨⟨rfl, rfl⟩, by decide, by decide⟩

/-- A token that fills the buffer. -/
def fullToken : Bytes := List.replicate bufferSize 97

private theorem not_isEchoOption_replicate (count : ℕ) :
    isEchoOption (List.replicate (count + 1) 97) = false := by
  simp [isEchoOption, List.replicate_succ]

/-- It comes back as it was. -/
theorem fullToken_found :
    (secretPasswordLookupSync ⟨some (bytes "/root"), 0#9⟩ ()
      (importedDisk fullToken)).map CString.bytes = some fullToken := by
  have hlength : fullToken.length = bufferSize := List.length_replicate
  have hnonempty : fullToken ≠ [] :=
    List.ne_nil_of_length_pos (by rw [hlength, bufferSize]; omega)
  have hnewline : newline ∉ fullToken := fun hmem => by
    simpa [newline] using List.eq_of_mem_replicate hmem
  have hnul : nul ∉ fullToken := fun hmem => by
    simpa [nul] using List.eq_of_mem_replicate hmem
  have hentered : Entered (keyringWorld fullToken) .keyring fullToken := ⟨rfl, rfl⟩
  have hpath : credPath (some (bytes "/root")) = credsFile (keyringWorld fullToken) := by decide
  have hsaid := (setup_of_keyring (fun _ => none) (fun _ => none) hnonempty hnewline hnul
    hentered).1
  refine (lookup_after_setup_iff hnonempty hnewline hnul hentered rfl ?_
    (by rw [importedDisk, hpath]) ()).mpr ⟨hlength, not_isEchoOption_replicate 4094, by simp⟩
  rw [hsaid]
  simp [reportLine, keyringWorld]

end TizenRoblox.Credentials
