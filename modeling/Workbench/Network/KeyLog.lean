import Workbench.Library.Bytes
import Workbench.Network.PcapExporter

/-! The key logs of the nodes, and how a capture file comes to have them.

TLS gives secrets line by line. When an exporter is done its packets are copied to a file that has
the lines before them, in a block of their own, so that what was sent can be decrypted. What the
libraries for hexadecimal digits and for capture files compute is a parameter here. -/

set_option autoImplicit false

namespace Workbench.Network

open Workbench.Library

/-! Secrets. -/

/-- What TLS logs. Texts are by their bytes. -/
structure Secret where
  label : List UInt8
  clientRandom : List UInt8
  secret : List UInt8
  deriving DecidableEq, Repr

def newline : UInt8 := 10
def blank : UInt8 := 32

/-- A label may be a word of a line. -/
def Secret.Plain (secret : Secret) : Prop := newline ∉ secret.label ∧ blank ∉ secret.label

instance (secret : Secret) : Decidable secret.Plain := inferInstanceAs (Decidable (_ ∧ _))

/-- A block of a capture file that is kept as it is written. -/
structure RawBlock where
  type : Nat
  initialLen : Nat
  body : List UInt8
  trailerLen : Nat
  deriving DecidableEq, Repr

/-- What the libraries for digits and for capture files compute. -/
structure PcapLibrary where
  hexEncode : List UInt8 → List UInt8
  fromSlice : List UInt8 → Option RawBlock

namespace PcapLibrary

/-- Each byte is encoded as two digits in lowercase. -/
def Encodes (library : PcapLibrary) : Prop := ∀ bytes, library.hexEncode bytes = hexDigits bytes

/-- A block is between two equal lengths, those of all of its bytes. Only the one that a section
starts with is read in another way. -/
def Parses (library : PcapLibrary) : Prop :=
  ∀ type body, type < 2 ^ 32 → type ≠ 0x0A0D0D0A → 12 + body.length < 2 ^ 32 → body.length % 4 = 0 →
    library.fromSlice (beBytes 4 type ++ beBytes 4 (12 + body.length) ++ body ++
      beBytes 4 (12 + body.length)) = some ⟨type, 12 + body.length, body, 12 + body.length⟩

/-- The libraries, as far as they are known from what they document. -/
def standard : PcapLibrary where
  hexEncode := hexDigits
  fromSlice slice :=
    let initialLen := ofBeBytes ((slice.drop 4).take 4)
    let body := (slice.drop 8).take (initialLen - 12)
    let trailerLen := ofBeBytes ((slice.drop (initialLen - 4)).take 4)
    if 12 ≤ initialLen ∧ initialLen % 4 = 0 ∧ initialLen ≤ slice.length ∧ trailerLen = initialLen
    then some ⟨ofBeBytes (slice.take 4), initialLen, body, trailerLen⟩
    else none

theorem standard_encodes : standard.Encodes := fun _ => rfl

theorem standard_parses : standard.Parses := by
  intro type body small _ fits whole
  let size := beBytes 4 (12 + body.length)
  have four : size.length = 4 := length_beBytes _ _
  have length : ofBeBytes size = 12 + body.length := ofBeBytes_beBytes fits
  have kind : ofBeBytes (beBytes 4 type) = type := ofBeBytes_beBytes small
  let slice := beBytes 4 type ++ size ++ body ++ size
  have first : slice.take 4 = beBytes 4 type := by simp [slice]
  have second : (slice.drop 4).take 4 = size := by simp [slice, four]
  have third : (slice.drop 8).take body.length = body :=
    take_drop_middle (by simp [four]) rfl
  have last : (slice.drop (8 + body.length)).take 4 = size := by
    have place : (beBytes 4 type ++ size ++ body).length = 8 + body.length := by
      simp [four]
      omega
    rw [List.drop_left' place, List.take_of_length_le four.le]
  have total : slice.length = 12 + body.length := by
    simp [slice, four]
    omega
  show standard.fromSlice slice = _
  unfold standard
  dsimp only
  rw [second, length, show 12 + body.length - 12 = body.length by omega, third,
    show 12 + body.length - 4 = 8 + body.length by omega, last, length, first, kind, if_pos]
  exact ⟨by omega, by omega, by omega, rfl⟩

end PcapLibrary

/-- The log of a node, by its lines. -/
structure InMemoryKeyLog where
  log : List (List UInt8)
  deriving DecidableEq, Repr

namespace KeyLog

def line (library : PcapLibrary) (secret : Secret) : List UInt8 :=
  secret.label ++ [blank] ++ library.hexEncode secret.clientRandom ++ [blank] ++
    library.hexEncode secret.secret

def log (library : PcapLibrary) (this : InMemoryKeyLog) (secret : Secret) : InMemoryKeyLog :=
  { log := this.log ++ [line library secret] }

end KeyLog

/-! Files. -/

/-- A block of a capture file, after the one that its section starts with. -/
inductive Block where
  | raw (block : RawBlock)
  | interfaceDescription
  | enhancedPacket (block : EnhancedPacketBlock)
  deriving DecidableEq, Repr

/-- The two files of a node, if they are there. -/
structure PcapFiles where
  tmp : Option (List Block)
  final : Option (List Block)
  deriving DecidableEq, Repr

namespace PcapExporter

/-- A cast to `u32`, and what a sum of that type wraps to. -/
def u32 (value : Nat) : Nat := value % 2 ^ 32

/-- The lines of a log, each one ended. -/
def secretsText (keylog : InMemoryKeyLog) : List UInt8 := [newline].intercalate keylog.log ++ [newline]

/-- The bytes of the block for the secrets. Its length is known last and put where space was saved. -/
def keylogBlock (secrets : List UInt8) : Option (List UInt8) :=
  let block := beBytes 4 0x0000000A
  let lengthOffset := block.length
  let block := block ++ [0, 0, 0, 0]
  let block := block ++ beBytes 4 0x544c534b
  let block := block ++ beBytes 4 (u32 secrets.length) ++ secrets
  -- Zeros are pushed until the length is a multiple of four.
  let block := block ++ List.replicate ((4 - block.length % 4) % 4) 0
  let totalLength := u32 (u32 block.length + 4)
  let block := block ++ beBytes 4 totalLength
  overwrite lengthOffset (beBytes 4 totalLength) block

/-- The block that is written, if the library takes it for one. -/
def writeKeylogPcapBlock (library : PcapLibrary) (keylog : InMemoryKeyLog) : Option RawBlock := do
  let block ← keylogBlock (secretsText keylog)
  library.fromSlice block

/-- What an exporter leaves when it is dropped: without a node there is no file, and without a log
the file has the packets alone. -/
def finish (library : PcapLibrary) (nodeId : Option NodeId) (keylog : Option InMemoryKeyLog)
    (this : PcapExporter) : PcapFiles :=
  let written := .interfaceDescription :: this.tmpWriter.map Block.enhancedPacket
  match nodeId, keylog with
  | none, _ => { tmp := none, final := none }
  | some _, none => { tmp := none, final := some written }
  | some _, some keylog =>
      match writeKeylogPcapBlock library keylog with
      | none => { tmp := some written, final := some [] }
      | some block => { tmp := none, final := some (.raw block :: written) }

end PcapExporter

/-! Reading. -/

/-- Reads a line of a log: a label and two words of digits. -/
def Secret.parse (line : List UInt8) : Option Secret :=
  match line.splitOn blank with
  | [label, clientRandom, secret] => do
      let clientRandom ← ofHexDigits clientRandom
      let secret ← ofHexDigits secret
      some ⟨label, clientRandom, secret⟩
  | _ => none

/-- Reads a log. Empty lines are left out. -/
def Secret.parseAll (text : List UInt8) : Option (List Secret) :=
  ((text.splitOn newline).filter (· ≠ [])).mapM Secret.parse

/-- Reads the body of a block for the secrets of TLS: their type and length, the log itself and
what is added to fill the last four bytes. -/
def Secret.decode (body : List UInt8) : Option (List Secret) :=
  let length := ofBeBytes ((body.drop 4).take 4)
  if ofBeBytes (body.take 4) = 0x544c534b ∧ 8 + length ≤ body.length ∧ body.length < 8 + length + 4
  then Secret.parseAll ((body.drop 8).take length)
  else none

/-! Round trips. -/

section Reading

variable {library : PcapLibrary} {secret : Secret} {secrets : List Secret}

theorem Secret.not_mem_hexDigits {mark : UInt8} (small : mark.toNat < 48) (bytes : List UInt8) :
    mark ∉ hexDigits bytes := by
  intro member
  have least := le_of_mem_hexDigits member
  omega

/-- A line is read as what it was written for. -/
theorem Secret.parse_line (encodes : library.Encodes) (plain : secret.Plain) :
    Secret.parse (KeyLog.line library secret) = some secret := by
  have words : KeyLog.line library secret = [blank].intercalate
      [secret.label, hexDigits secret.clientRandom, hexDigits secret.secret] := by
    simp [KeyLog.line, encodes _]
  have split : (KeyLog.line library secret).splitOn blank =
      [secret.label, hexDigits secret.clientRandom, hexDigits secret.secret] := by
    rw [words]
    apply List.splitOn_intercalate
    · intro word member
      simp only [List.mem_cons, List.not_mem_nil, or_false] at member
      rcases member with rfl | rfl | rfl
      · exact plain.2
      · exact not_mem_hexDigits (by decide) _
      · exact not_mem_hexDigits (by decide) _
    · exact List.cons_ne_nil _ _
  unfold Secret.parse
  rw [split]
  simp only [ofHexDigits_hexDigits, Option.bind_eq_bind, Option.bind_some]

theorem KeyLog.newline_notMem_line (encodes : library.Encodes) (plain : secret.Plain) :
    newline ∉ KeyLog.line library secret := by
  unfold KeyLog.line
  rw [encodes, encodes]
  intro member
  simp only [List.mem_append, List.mem_singleton] at member
  rcases member with (((here | here) | here) | here) | here
  · exact plain.1 here
  · cases here
  · exact Secret.not_mem_hexDigits (by decide) _ here
  · cases here
  · exact Secret.not_mem_hexDigits (by decide) _ here

theorem KeyLog.line_ne_nil : KeyLog.line library secret ≠ [] := by simp [KeyLog.line]

/-- Lines that are ended are found again. -/
theorem PcapExporter.splitOn_secretsText {lines : List (List UInt8)}
    (apart : ∀ line ∈ lines, newline ∉ line) (full : ∀ line ∈ lines, line ≠ []) :
    ((secretsText ⟨lines⟩).splitOn newline).filter (· ≠ []) = lines := by
  have kept : lines.filter (· ≠ []) = lines := by
    apply List.filter_eq_self.mpr
    intro line member
    simpa using full line member
  cases lines with
  | nil => decide
  | cons first rest =>
      have ended : secretsText ⟨first :: rest⟩ = [newline].intercalate ((first :: rest) ++ [[]]) := by
        clear kept full apart
        unfold secretsText
        dsimp only
        induction rest generalizing first with
        | nil => simp
        | cons second rest ih =>
            have later := ih second
            simp only [List.cons_append, List.intercalate_cons_cons, List.append_assoc] at later ⊢
            rw [later]
      rw [ended, List.splitOn_intercalate newline _ (by simp), List.filter_append, kept]
      · simp
      · intro line member
        rcases List.mem_append.mp member with old | new
        · exact apart line old
        · rw [List.mem_singleton.mp new]
          exact List.not_mem_nil

/-- A whole log is read as what was logged. -/
theorem Secret.parseAll_secretsText (encodes : library.Encodes)
    (plain : ∀ secret ∈ secrets, secret.Plain) :
    Secret.parseAll (PcapExporter.secretsText ⟨secrets.map (KeyLog.line library)⟩) = some secrets := by
  unfold Secret.parseAll
  rw [PcapExporter.splitOn_secretsText]
  · induction secrets with
    | nil => rfl
    | cons secret secrets ih =>
        obtain ⟨first, rest⟩ := List.forall_mem_cons.mp plain
        rw [List.map_cons, List.mapM_cons, parse_line encodes first, ih rest]
        rfl
  · intro line member
    obtain ⟨secret, logged, rfl⟩ := List.mem_map.mp member
    exact KeyLog.newline_notMem_line encodes (plain secret logged)
  · intro line member
    obtain ⟨secret, -, rfl⟩ := List.mem_map.mp member
    exact KeyLog.line_ne_nil

end Reading

section Writing

variable {library : PcapLibrary} {secrets : List Secret}

/-- What is between the lengths of the block for some lines. -/
def PcapExporter.keylogBody (text : List UInt8) : List UInt8 :=
  beBytes 4 0x544c534b ++ beBytes 4 text.length ++ text ++ List.replicate ((4 - text.length % 4) % 4) 0

theorem PcapExporter.length_keylogBody (text : List UInt8) :
    (keylogBody text).length = 8 + text.length + (4 - text.length % 4) % 4 := by
  simp [keylogBody]
  omega

/-- Where the lengths fit, the block has them at both ends. -/
theorem PcapExporter.keylogBlock_eq {text : List UInt8} (fits : text.length + 24 ≤ 2 ^ 32) :
    keylogBlock text = some (beBytes 4 0x0000000A ++ beBytes 4 (12 + (keylogBody text).length) ++
      keylogBody text ++ beBytes 4 (12 + (keylogBody text).length)) := by
  have length := length_keylogBody text
  have small : u32 text.length = text.length := Nat.mod_eq_of_lt (by omega)
  let block := beBytes 4 0x0000000A ++ [0, 0, 0, 0] ++ beBytes 4 0x544c534b ++
    beBytes 4 text.length ++ text
  let padded := block ++ List.replicate ((4 - block.length % 4) % 4) 0
  have padding : (4 - block.length % 4) % 4 = (4 - text.length % 4) % 4 := by
    simp only [block, List.length_append, length_beBytes, List.length_cons, List.length_nil]
    omega
  have same : padded = beBytes 4 0x0000000A ++ [0, 0, 0, 0] ++ keylogBody text := by
    show block ++ List.replicate ((4 - block.length % 4) % 4) 0 = _
    rw [padding]
    simp only [block, keylogBody, List.append_assoc]
  have total : u32 (u32 padded.length + 4) = 12 + (keylogBody text).length := by
    rw [same]
    simp only [u32, List.length_append, length_beBytes, List.length_cons, List.length_nil]
    omega
  rw [keylogBlock, small]
  show overwrite _ (beBytes 4 (u32 (u32 padded.length + 4)))
    (padded ++ beBytes 4 (u32 (u32 padded.length + 4))) = _
  rw [total, same, List.append_assoc (beBytes 4 _ ++ _)]
  rw [overwrite_middle rfl (by simp)]
  simp only [List.append_assoc]

/-- Reads the body of a block as the secrets whose lines are in it. -/
theorem Secret.decode_keylogBody {text : List UInt8} (fits : text.length < 2 ^ 32) :
    Secret.decode (PcapExporter.keylogBody text) = Secret.parseAll text := by
  have length := PcapExporter.length_keylogBody text
  have kind : ofBeBytes ((PcapExporter.keylogBody text).take 4) = 0x544c534b := by
    have first : (PcapExporter.keylogBody text).take 4 = beBytes 4 0x544c534b := by
      simp [PcapExporter.keylogBody]
    rw [first]
    exact ofBeBytes_beBytes (by decide)
  have size : ofBeBytes (((PcapExporter.keylogBody text).drop 4).take 4) = text.length := by
    have second : ((PcapExporter.keylogBody text).drop 4).take 4 = beBytes 4 text.length := by
      simp [PcapExporter.keylogBody]
    rw [second]
    exact ofBeBytes_beBytes fits
  have lines : ((PcapExporter.keylogBody text).drop 8).take text.length = text :=
    take_drop_middle (by simp) rfl
  unfold Secret.decode
  dsimp only
  rw [size, kind, lines, if_pos ⟨rfl, by omega, by omega⟩]

/-- A log that fits is written as a block from which its secrets are read. -/
theorem PcapExporter.writeKeylogPcapBlock_reads (encodes : library.Encodes) (parses : library.Parses)
    (plain : ∀ secret ∈ secrets, secret.Plain) {keylog : InMemoryKeyLog}
    (logged : keylog = ⟨secrets.map (KeyLog.line library)⟩)
    (fits : (secretsText keylog).length + 24 ≤ 2 ^ 32) :
    ∃ body, writeKeylogPcapBlock library keylog =
        some ⟨0x0000000A, 12 + body.length, body, 12 + body.length⟩ ∧
      body.length % 4 = 0 ∧ Secret.decode body = some secrets := by
  have length := length_keylogBody (secretsText keylog)
  refine ⟨keylogBody (secretsText keylog), ?_, by omega, ?_⟩
  · rw [writeKeylogPcapBlock, keylogBlock_eq fits, Option.bind_eq_bind, Option.bind_some]
    apply parses
    · decide
    · decide
    · omega
    · omega
  · rw [Secret.decode_keylogBody (by omega), logged]
    exact Secret.parseAll_secretsText encodes plain

end Writing

end Workbench.Network
