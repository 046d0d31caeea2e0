import Mathlib.Data.List.TakeWhile
import PyWhats.Jid
import PyWhats.Lib.Reader
import PyWhats.PyBytes
import PyWhats.Tokens
import PyWhats.Wire

/-! Stanza trees as bytes: `binary/encoder.py` and `binary/decoder.py`. A writer
returns what it appends to the buffer; a reader takes its bytes off the front of
what is left. -/

namespace PyWhats

/-- The two calls into `zlib`. -/
structure Zlib where
  compress : Bytes → Bytes
  decompress : Bytes → Except PyError Bytes

namespace Binary

def utf8Encode (s : String) : Bytes := s.toByteArray.data.toList

def utf8Decode (data : Bytes) : Except PyError String :=
  match String.fromUTF8? ⟨data.toArray⟩ with
  | some s => .ok s
  | none => .error (.valueError "'utf-8' codec can't decode bytes")

section Encoder

def writeListHeader (count : Nat) : Except PyError Bytes :=
  if count = 0 then .ok [listEmpty]
  else if count < 256 then .ok [list8, byte count]
  else if count < 65536 then .ok (list16 :: toBytesBig 2 count)
  else .error (.valueError ("list too long to encode: " ++ toString count))

def writeBytes (data : Bytes) : Except PyError Bytes :=
  let n := data.length
  if n < 256 then .ok (binary8 :: byte n :: data)
  else if n < 1048576 then
    .ok (binary20 :: byte (n / 65536 % 16) :: byte (n / 256 % 256) :: byte (n % 256) :: data)
  else if n < 4294967296 then .ok (binary32 :: (toBytesBig 4 n ++ data))
  else .error (.valueError ("byte string too long: " ++ toString n))

def allIn (s : List Char) (alphabet : List Char) : Bool :=
  !s.isEmpty && s.all (fun c => c ∈ alphabet && c ≠ Char.ofNat 0)

def packPairs (alphabet : List Char) : List Char → Bytes
  | [] => []
  | [c] => [byte (alphabet.idxOf c * 16 + 15)]
  | c :: c' :: rest =>
    byte (alphabet.idxOf c * 16 + alphabet.idxOf c') :: packPairs alphabet rest

def writePacked (s : List Char) (tag : UInt8) (alphabet : List Char) : Except PyError Bytes :=
  let headerLen := (s.length + 1) / 2
  if headerLen ≥ 128 then .error (.valueError "packed string too long")
  else .ok (tag :: byte (s.length % 2 * 128 + headerLen) :: packPairs alphabet s)

def serverToAgent (server : String) : UInt8 :=
  if server = "lid" then 1
  else if server = "hosted" then 128
  else if server = "hosted.lid" then 129
  else 0

def writeJidUser (writeString : String → Except PyError Bytes) (user : String) :
    Except PyError Bytes := if user ≠ "" then writeString user else .ok [listEmpty]

def writeJidWith (writeString : String → Except PyError Bytes) (jid : JID) :
    Except PyError Bytes :=
  if jid.device ≠ 0 then do
    let user ← writeString jid.user
    return adJid :: serverToAgent jid.server :: byte (jid.device % 256).toNat :: user
  else do
    let user ← writeJidUser writeString jid.user
    let server ← writeString jid.server
    return jidPair :: (user ++ server)

/-- `_write_string` and `_write_jid` call each other on the parts of a textual JID,
which are shorter than the text: its length bounds the calls. -/
def writeStringFuel (fuel : Nat) (s : String) : Except PyError Bytes :=
  if s = "" then .ok [binary8, 0]
  else
    match lookupSingle s with
    | some index => .ok [byte index]
    | none =>
      match lookupDouble s with
      | some (dictNo, index) => .ok [dictionary0 + byte dictNo, byte index]
      | none =>
        if '@' ∈ s.toList then
          match fuel with
          | 0 => .error (.valueError "unreachable")
          | fuel + 1 => do
            let jid ← parseJid s
            writeJidWith (writeStringFuel fuel) jid
        else if allIn s.toList nibbleAlphabet then writePacked s.toList nibble8 nibbleAlphabet
        else if allIn s.toList hexAlphabet then writePacked s.toList hex8 hexAlphabet
        else writeBytes (utf8Encode s)

def writeString (s : String) : Except PyError Bytes := writeStringFuel s.toList.length s

def writeJid (jid : JID) : Except PyError Bytes := writeJidWith writeString jid

theorem rsplit_length_le (sep : Char) (s : List Char) :
    (PyText.rsplit sep s).1.length ≤ s.length := by
  simp only [PyText.rsplit, PyText.partition, List.length_reverse]
  calc (s.reverse.dropWhile (· ≠ sep)).tail.length
      ≤ (s.reverse.dropWhile (· ≠ sep)).length := by simp
    _ ≤ s.reverse.length := (List.dropWhile_suffix _).length_le
    _ = s.length := List.length_reverse

theorem splitDevice_length_le {user u seps : List Char} {d : Int}
    (h : splitDevice user seps = .ok (u, d)) : u.length ≤ user.length := by
  induction seps with
  | nil =>
    cases h
    exact Nat.le_refl _
  | cons sep seps ih =>
    simp only [splitDevice] at h
    split at h
    · split at h
      · split at h
        · cases h
          exact rsplit_length_le sep user
        · cases h
      · exact ih h
    · exact ih h

theorem parseJid_length_lt {text : String} {jid : JID} (hat : '@' ∈ text.toList)
    (h : parseJid text = .ok jid) :
    jid.user.toList.length < text.toList.length ∧
      jid.server.toList.length < text.toList.length := by
  have hcut : (text.toList.takeWhile (· ≠ '@')).length +
      (text.toList.dropWhile (· ≠ '@')).length = text.toList.length := by
    rw [← List.length_append, List.takeWhile_append_dropWhile]
  have hrest : 0 < (text.toList.dropWhile (· ≠ '@')).length := by
    rw [List.length_pos_iff]
    intro hnil
    have hall := List.dropWhile_eq_nil_iff.mp hnil
    simpa using hall '@' hat
  rw [parseJid, if_neg (not_not.mpr hat)] at h
  simp only [PyText.partition] at h
  obtain ⟨⟨user, device⟩, hsplit, h⟩ := except_bind_ok.mp h
  cases h
  have huser := splitDevice_length_le hsplit
  simp only [String.toList_ofList, List.length_tail]
  omega

theorem writeJidWith_congr {write write' : String → Except PyError Bytes} {jid : JID}
    (huser : write jid.user = write' jid.user) (hserver : write jid.server = write' jid.server) :
    writeJidWith write jid = writeJidWith write' jid := by
  simp only [writeJidWith, writeJidUser, huser, hserver]

theorem writeStringFuel_eq {fuel fuel' : Nat} {s : String} (h : s.toList.length ≤ fuel)
    (h' : s.toList.length ≤ fuel') : writeStringFuel fuel s = writeStringFuel fuel' s := by
  induction fuel generalizing fuel' s with
  | zero =>
    have hempty : s = "" := String.toList_eq_nil_iff.mp (List.length_eq_zero_iff.mp (by omega))
    rw [writeStringFuel.eq_def, writeStringFuel.eq_def, if_pos hempty, if_pos hempty]
  | succ fuel ih =>
    cases fuel' with
    | zero =>
      have hempty : s = "" := String.toList_eq_nil_iff.mp (List.length_eq_zero_iff.mp (by omega))
      rw [writeStringFuel.eq_def, writeStringFuel.eq_def, if_pos hempty, if_pos hempty]
    | succ fuel' =>
      rw [writeStringFuel.eq_def, writeStringFuel.eq_def (fuel' + 1)]
      by_cases hat : '@' ∈ s.toList
      · have hjid : (parseJid s >>= writeJidWith (writeStringFuel fuel)) =
            (parseJid s >>= writeJidWith (writeStringFuel fuel')) := by
          cases hparse : parseJid s with
          | error e => rfl
          | ok jid =>
            obtain ⟨huser, hserver⟩ := parseJid_length_lt hat hparse
            exact writeJidWith_congr (ih (by omega) (by omega)) (ih (by omega) (by omega))
        simp only [if_pos hat, hjid]
      · simp only [if_neg hat]

def writeAttrValue : AttrValue → Except PyError Bytes
  | .jid j => writeJid j
  | .int n => writeString (toString n)
  | .str s => writeString s

def writeAttrs : List (String × AttrValue) → Except PyError Bytes
  | [] => .ok []
  | (k, v) :: rest => do
    let key ← writeString k
    let value ← writeAttrValue v
    let tail ← writeAttrs rest
    return key ++ value ++ tail

def contentItems {ν : Type} : NodeContent ν → Nat
  | .none => 0
  | .bytes _ | .nodes _ => 1

mutual

def writeNode : Node → Except PyError Bytes
  | .mk tag attrs content => do
    let header ← writeListHeader (1 + 2 * attrs.length + contentItems content)
    let name ← writeString tag
    let attributes ← writeAttrs attrs
    let body ← writeContent content
    return header ++ name ++ attributes ++ body

/-- Nothing is written for a missing content. -/
def writeContent : NodeContent Node → Except PyError Bytes
  | .none => .ok []
  | .bytes data => writeBytes data
  | .nodes children => do
    let header ← writeListHeader children.length
    let body ← writeNodes children
    return header ++ body

def writeNodes : List Node → Except PyError Bytes
  | [] => .ok []
  | node :: rest => do
    let head ← writeNode node
    let tail ← writeNodes rest
    return head ++ tail

end

def encode (z : Zlib) (node : Node) (compress : Bool) : Except PyError Bytes := do
  let payload ← writeNode node
  return if compress then 0x02 :: z.compress payload else 0x00 :: payload

end Encoder

section Decoder

abbrev ByteReader := Reader UInt8 PyError

def u8 : ByteReader UInt8 := Reader.next (.valueError "unexpected end of buffer")

def read (n : Nat) : ByteReader Bytes := Reader.take (.valueError "unexpected end of buffer") n

def fail {α : Type} (e : PyError) : ByteReader α := StateT.lift (.error e)

def readListSize (tag : UInt8) : ByteReader Nat :=
  if tag = listEmpty then pure 0
  else if tag = list8 then do return (← u8).toNat
  else if tag = list16 then do
    let hi ← u8
    let lo ← u8
    return hi.toNat * 256 + lo.toNat
  else fail (.valueError ("expected list tag, got " ++ toString tag))

/-- One byte of a packed string: its two symbols, or the first when the second is
the filler of an odd length. -/
def unpack (alphabet : List Char) (b : UInt8) (last : Bool) : List Char :=
  let hi := alphabet.getD (b.toNat / 16 % 16) (Char.ofNat 0)
  if last then [hi] else [hi, alphabet.getD (b.toNat % 16) (Char.ofNat 0)]

def unpackAll (alphabet : List Char) (odd : Bool) : Bytes → List Char
  | [] => []
  | [b] => unpack alphabet b odd
  | b :: b' :: rest => unpack alphabet b false ++ unpackAll alphabet odd (b' :: rest)

def readPacked (alphabet : List Char) : ByteReader String := do
  let header ← u8
  let data ← u8.times (header.toNat % 128)
  return String.ofList (unpackAll alphabet (header.toNat ≥ 128) data)

def readBytePayload (tag : UInt8) : ByteReader Bytes :=
  if tag = binary8 then do read (← u8).toNat
  else if tag = binary20 then do
    let b0 ← u8
    let b1 ← u8
    let b2 ← u8
    read (b0.toNat % 16 * 65536 + b1.toNat * 256 + b2.toNat)
  else if tag = binary32 then do read (fromBytesBig (← read 4))
  else if tag = nibble8 then do return utf8Encode (← readPacked nibbleAlphabet)
  else if tag = hex8 then do return utf8Encode (← readPacked hexAlphabet)
  else fail (.valueError ("unknown string/byte tag " ++ toString tag))

/-- What `_read_string_or_bytes` returns. -/
inductive Payload where
  | str (s : String)
  | bytes (b : Bytes)

def Payload.text : Payload → Except PyError String
  | .str s => .ok s
  | .bytes b => utf8Decode b

def readStringOrBytes (tag : UInt8) : ByteReader Payload :=
  if tag = 0 then pure (.str "")
  else if tag ≤ 235 then do return .str (← StateT.lift (singleTokenAt tag.toNat))
  else if tag ≤ dictionary3 then do
    let index ← u8
    return .str (← StateT.lift (doubleTokenAt (tag - dictionary0).toNat index.toNat))
  else do return .bytes (← readBytePayload tag)

def readText (tag : UInt8) : ByteReader String := do
  let v ← readStringOrBytes tag
  StateT.lift v.text

def readString : ByteReader String := do readText (← u8)

/-- The user may be missing, as in the JID of a server. -/
def readJidUser (peek : UInt8) : ByteReader String :=
  if peek = listEmpty then pure "" else readText peek

def readJidPair : ByteReader JID := do
  let peek ← u8
  let user ← readJidUser peek
  let server ← readString
  return { user := user, server := server }

def agentToServer (agent : UInt8) : String :=
  if agent = 1 then "lid"
  else if agent = 128 then "hosted"
  else if agent = 129 then "hosted.lid"
  else "s.whatsapp.net"

def readAdJid : ByteReader JID := do
  let agent ← u8
  let device ← u8
  let user ← readString
  return { user := user, server := agentToServer agent, device := device.toNat }

def readAttrValue : ByteReader AttrValue := do
  let tag ← u8
  if tag = jidPair then return .jid (← readJidPair)
  else if tag = adJid then return .jid (← readAdJid)
  else return .str (← readText tag)

def readAttr : ByteReader (String × AttrValue) := do
  let k ← readString
  let v ← readAttrValue
  return (k, v)

/-- `attrs[k] = v`. -/
def setAttr (attrs : List (String × AttrValue)) (attr : String × AttrValue) :
    List (String × AttrValue) :=
  if attr.1 ∈ attrs.map Prod.fst then attrs.map (fun a => if a.1 = attr.1 then attr else a)
  else attrs ++ [attr]

def readContentWith (readNode : ByteReader Node) : ByteReader (NodeContent Node) := do
  let tag ← u8
  if tag = listEmpty ∨ tag = list8 ∨ tag = list16 then
    let n ← readListSize tag
    return .nodes (← readNode.times n)
  else return .bytes (← readBytePayload tag)

def readOptionalContent (readNode : ByteReader Node) (hasContent : Bool) :
    ByteReader (NodeContent Node) :=
  if hasContent then readContentWith readNode else pure .none

/-- A node takes at least one byte, so the bytes that are left bound the nesting;
with none left there is no list tag to read. -/
def readNode : Nat → ByteReader Node
  | 0 => fail (.valueError "unexpected end of buffer")
  | fuel + 1 => do
    let listTag ← u8
    let count ← readListSize listTag
    if count = 0 then fail (.valueError "empty list where a node was expected")
    else
      let tag ← readString
      let attrs ← readAttr.times ((count - 1) / 2)
      let content ← readOptionalContent (readNode fuel) ((count - 1) % 2 = 1)
      return .mk tag (attrs.foldl setAttr []) content

def inflate (z : Zlib) (flags : UInt8) (payload : Bytes) : Except PyError Bytes :=
  if flags &&& 0x02 ≠ 0 then z.decompress payload else .ok payload

def decode (z : Zlib) : Bytes → Except PyError Node
  | [] => .error (.valueError "frame too short")
  | flags :: payload => do
    let payload ← inflate z flags payload
    let (node, _) ← readNode payload.length payload
    return node

end Decoder

end Binary

end PyWhats
