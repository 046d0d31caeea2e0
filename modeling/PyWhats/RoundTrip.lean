import Mathlib.Algebra.Group.Nat.Even
import Mathlib.Data.List.GetD
import Mathlib.Data.List.Induction
import PyWhats.Codec

/-! Every form in which the encoder writes a string, a JID, a list or a node is read
back by the branch of the decoder it is written for, so a stanza that is encoded is
decoded as it was. -/

namespace PyWhats

open Reader (Reads)

namespace Binary

theorem reads_listSize {count : Nat} {bs : Bytes} (h : writeListHeader count = .ok bs) :
    ∃ tag tl, bs = tag :: tl ∧ (tag = listEmpty ∨ tag = list8 ∨ tag = list16) ∧
      Reads (readListSize tag) tl count := by
  simp only [writeListHeader] at h
  split at h
  · rename_i hzero
    cases h
    subst hzero
    exact ⟨listEmpty, [], rfl, Or.inl rfl, Reads.pure 0⟩
  split at h
  · rename_i _ hsmall
    cases h
    refine ⟨list8, [byte count], rfl, Or.inr (Or.inl rfl), ?_⟩
    have hread := (Reads.next (PyError.valueError "unexpected end of buffer") (byte count)).map
      (f := UInt8.toNat)
    rw [byte_toNat hsmall] at hread
    exact hread
  split at h
  · rename_i _ _ hmid
    cases h
    refine ⟨list16, toBytesBig 2 count, rfl, Or.inr (Or.inr rfl), ?_⟩
    have hsum : (byte (count / 256)).toNat * 256 + (byte count).toNat = count := by
      rw [byte_toNat (by omega : count / 256 < 256), byte_toNat_mod]
      omega
    have hread : Reads (readListSize list16) [byte (count / 256), byte count]
        ((byte (count / 256)).toNat * 256 + (byte count).toNat) :=
      Reads.next_bind (Reads.next_bind (Reads.pure _))
    rwa [hsum] at hread
  · cases h

theorem reads_bytePayload {data bs : Bytes} (h : writeBytes data = .ok bs) :
    ∃ tag tl, bs = tag :: tl ∧ (tag = binary8 ∨ tag = binary20 ∨ tag = binary32) ∧
      Reads (readBytePayload tag) tl data := by
  simp only [writeBytes] at h
  split at h
  · rename_i hsmall
    cases h
    refine ⟨binary8, _, rfl, Or.inl rfl, Reads.next_bind ?_⟩
    rw [byte_toNat hsmall]
    exact Reads.take _ data
  split at h
  · rename_i _ hmid
    cases h
    refine ⟨binary20, _, rfl, Or.inr (Or.inl rfl), ?_⟩
    refine Reads.next_bind (Reads.next_bind (Reads.next_bind ?_))
    have hsum : (byte (data.length / 65536 % 16)).toNat % 16 * 65536 +
        (byte (data.length / 256 % 256)).toNat * 256 + (byte (data.length % 256)).toNat =
          data.length := by
      simp only [byte_toNat_mod]
      omega
    rw [hsum]
    exact Reads.take _ data
  split at h
  · rename_i _ _ hlarge
    cases h
    refine ⟨binary32, _, rfl, Or.inr (Or.inr rfl), ?_⟩
    have hhead := Reads.take (PyError.valueError "unexpected end of buffer")
      (toBytesBig 4 data.length)
    rw [toBytesBig_length] at hhead
    refine Reads.bind (f := fun b => read (fromBytesBig b)) hhead ?_
    rw [fromBytesBig_toBytesBig (by omega)]
    exact Reads.take _ data
  · cases h

section Packed

variable {alphabet : List Char}

/-- The symbols of a packed string have codes of four bits. -/
def Packs (alphabet s : List Char) : Prop := ∀ c ∈ s, c ∈ alphabet ∧ alphabet.idxOf c < 16

theorem getD_idxOf {c : Char} (h : c ∈ alphabet) :
    alphabet.getD (alphabet.idxOf c) (Char.ofNat 0) = c := by
  have hlt := List.idxOf_lt_length_iff.mpr h
  rw [List.getD_eq_getElem _ _ hlt]
  exact List.getElem_idxOf hlt

theorem unpack_pair {c c' : Char} (hc : c ∈ alphabet ∧ alphabet.idxOf c < 16)
    (hc' : c' ∈ alphabet ∧ alphabet.idxOf c' < 16) :
    unpack alphabet (byte (alphabet.idxOf c * 16 + alphabet.idxOf c')) false = [c, c'] := by
  have hb := byte_toNat (n := alphabet.idxOf c * 16 + alphabet.idxOf c') (by omega)
  have hhi : (alphabet.idxOf c * 16 + alphabet.idxOf c') / 16 % 16 = alphabet.idxOf c := by omega
  have hlo : (alphabet.idxOf c * 16 + alphabet.idxOf c') % 16 = alphabet.idxOf c' := by omega
  simp only [unpack, hb, hhi, hlo, getD_idxOf hc.1, getD_idxOf hc'.1, Bool.false_eq_true, if_false]

theorem unpack_last {c : Char} (hc : c ∈ alphabet ∧ alphabet.idxOf c < 16) :
    unpack alphabet (byte (alphabet.idxOf c * 16 + 15)) true = [c] := by
  have hb := byte_toNat (n := alphabet.idxOf c * 16 + 15) (by omega)
  have hhi : (alphabet.idxOf c * 16 + 15) / 16 % 16 = alphabet.idxOf c := by omega
  simp only [unpack, hb, hhi, getD_idxOf hc.1, if_true]

variable (alphabet) in
theorem packPairs_length (s : List Char) : (packPairs alphabet s).length = (s.length + 1) / 2 := by
  induction s using packPairs.induct with
  | case1 => rfl
  | case2 c => simp only [packPairs, List.length_singleton]
  | case3 c c' rest ih =>
    simp only [packPairs, List.length_cons, ih]
    omega

theorem unpackAll_packPairs {s : List Char} (hs : Packs alphabet s) :
    unpackAll alphabet (s.length % 2 = 1) (packPairs alphabet s) = s := by
  induction s using packPairs.induct with
  | case1 => rfl
  | case2 c => exact unpack_last (hs c List.mem_cons_self)
  | case3 c c' rest ih =>
    have hpair := unpack_pair (hs c List.mem_cons_self)
      (hs c' (List.mem_cons_of_mem _ List.mem_cons_self))
    have hrest := ih fun d hd => hs d (List.mem_cons_of_mem _ (List.mem_cons_of_mem _ hd))
    have hparity : (c :: c' :: rest).length % 2 = rest.length % 2 := by
      simp only [List.length_cons]
      omega
    rw [hparity, packPairs]
    cases htail : packPairs alphabet rest with
    | nil =>
      have hnil : rest = [] := by
        have hlen := packPairs_length alphabet rest
        rw [htail, List.length_nil] at hlen
        exact List.length_eq_zero_iff.mp (by omega)
      subst hnil
      exact hpair
    | cons b bs =>
      rw [htail] at hrest
      rw [unpackAll, hpair, hrest]
      rfl

theorem reads_packed {s : List Char} {tag : UInt8} {bs : Bytes} (hs : Packs alphabet s)
    (h : writePacked s tag alphabet = .ok bs) :
    ∃ tl, bs = tag :: tl ∧ Reads (readPacked alphabet) tl (String.ofList s) := by
  simp only [writePacked] at h
  split at h
  · cases h
  · rename_i hlen
    cases h
    refine ⟨_, rfl, Reads.next_bind ?_⟩
    have hb := byte_toNat (n := s.length % 2 * 128 + (s.length + 1) / 2) (by omega)
    have hmod : (s.length % 2 * 128 + (s.length + 1) / 2) % 128 = (packPairs alphabet s).length := by
      rw [packPairs_length]
      omega
    have hodd : decide (s.length % 2 * 128 + (s.length + 1) / 2 ≥ 128) =
        decide (s.length % 2 = 1) := by
      rw [decide_eq_decide]
      omega
    have hbytes : List.Forall₂ (Reads u8) ((packPairs alphabet s).map fun b => [b])
        (packPairs alphabet s) := by
      rw [List.forall₂_map_left_iff]
      exact List.forall₂_same.mpr fun b _ => Reads.next _ b
    have hread := (Reads.times hbytes).map
      (f := fun data => String.ofList (unpackAll alphabet (s.length % 2 = 1) data))
    rw [unpackAll_packPairs hs] at hread
    rw [hb, hmod, hodd]
    have hflat : ((packPairs alphabet s).map fun b => [b]).flatten = packPairs alphabet s := by
      rw [← List.flatMap_def, List.flatMap_singleton']
    rwa [hflat] at hread

theorem packs_of_allIn {s : List Char} (hcodes : ∀ c ∈ alphabet, c ≠ Char.ofNat 0 →
    alphabet.idxOf c < 16) (h : allIn s alphabet = true) : Packs alphabet s := by
  intro c hc
  simp only [allIn, Bool.and_eq_true, List.all_eq_true, decide_eq_true_eq] at h
  obtain ⟨hmem, hne⟩ := h.2 c hc
  exact ⟨hmem, hcodes c hmem hne⟩

theorem codes_of_all
    (h : alphabet.all (fun c => c = Char.ofNat 0 || alphabet.idxOf c < 16) = true) :
    ∀ c ∈ alphabet, c ≠ Char.ofNat 0 → alphabet.idxOf c < 16 := by
  intro c hc hne
  have hcode := List.all_eq_true.mp h c hc
  simpa [hne] using hcode

theorem nibbleAlphabet_codes : ∀ c ∈ nibbleAlphabet, c ≠ Char.ofNat 0 →
    nibbleAlphabet.idxOf c < 16 := codes_of_all (by decide)

theorem hexAlphabet_codes : ∀ c ∈ hexAlphabet, c ≠ Char.ofNat 0 →
    hexAlphabet.idxOf c < 16 := codes_of_all (by decide)

end Packed

section Strings

theorem utf8Decode_utf8Encode (s : String) : utf8Decode (utf8Encode s) = .ok s := by
  have harray : (⟨(utf8Encode s).toArray⟩ : ByteArray) = s.toByteArray := by
    simp only [utf8Encode, Array.toArray_toList]
  have hdecode : String.fromUTF8? s.toByteArray = some s := by
    simp only [String.fromUTF8?, s.isValidUTF8, dif_pos]
    rfl
  simp only [utf8Decode, harray, hdecode]

/-- The first bytes that make a reader look for something else than a string. -/
def Plain (tag : UInt8) : Prop := tag ≠ listEmpty ∧ tag ≠ jidPair ∧ tag ≠ adJid

theorem reads_text_str {tag : UInt8} {tl : Bytes} {s : String}
    (h : Reads (readStringOrBytes tag) tl (.str s)) : Reads (readText tag) tl s := by
  have hread := h.bind (f := fun v => (StateT.lift v.text : ByteReader String)) (Reads.lift rfl)
  rwa [List.append_nil] at hread

theorem reads_payload_bytes {tag : UInt8} {tl b : Bytes} (htag : dictionary3 < tag)
    (h : Reads (readBytePayload tag) tl b) : Reads (readStringOrBytes tag) tl (.bytes b) := by
  have hbig : 239 < tag.toNat := htag
  have h0 : ¬ tag = 0 := fun h => by
    rw [h] at hbig
    exact absurd hbig (by decide)
  have h1 : ¬ tag ≤ 235 := fun h => absurd (show tag.toNat ≤ 235 from h) (by omega)
  have h2 : ¬ tag ≤ dictionary3 := fun h => absurd (show tag.toNat ≤ 239 from h) (by omega)
  rw [readStringOrBytes, if_neg h0, if_neg h1, if_neg h2]
  exact h.map

theorem reads_text_bytes {tag : UInt8} {tl : Bytes} {s : String} (htag : dictionary3 < tag)
    (h : Reads (readBytePayload tag) tl (utf8Encode s)) : Reads (readText tag) tl s := by
  have hread := (reads_payload_bytes htag h).bind
    (f := fun v => (StateT.lift v.text : ByteReader String))
    (Reads.lift (utf8Decode_utf8Encode s))
  rwa [List.append_nil] at hread

theorem reads_single {s : String} {i : Nat} (h : lookupSingle s = some i) :
    Plain (byte i) ∧ Reads (readText (byte i)) [] s := by
  obtain ⟨hpos, hlt, htok⟩ := lookupSingle_spec h
  have hb := byte_toNat (n := i) (by omega)
  have hne : ∀ t : UInt8, t.toNat = 0 ∨ 236 ≤ t.toNat → byte i ≠ t := by
    intro t ht heq
    rw [heq] at hb
    omega
  refine ⟨⟨hne _ (Or.inl rfl), hne _ (Or.inr (by decide)), hne _ (Or.inr (by decide))⟩, ?_⟩
  apply reads_text_str
  have h0 : ¬ byte i = 0 := hne 0 (Or.inl rfl)
  have h1 : byte i ≤ 235 := by
    have hle : (byte i).toNat ≤ 235 := by omega
    exact hle
  rw [readStringOrBytes, if_neg h0, if_pos h1]
  refine Reads.map (f := Payload.str) (Reads.lift ?_)
  rw [hb]
  exact htok

theorem reads_double {s : String} {d i : Nat} (h : lookupDouble s = some (d, i)) :
    Plain (dictionary0 + byte d) ∧ Reads (readText (dictionary0 + byte d)) [byte i] s := by
  obtain ⟨hd, hi, htok⟩ := lookupDouble_spec h
  have hdict : Plain (dictionary0 + byte d) ∧ ¬ dictionary0 + byte d = 0 ∧
      ¬ dictionary0 + byte d ≤ 235 ∧ dictionary0 + byte d ≤ dictionary3 ∧
      (dictionary0 + byte d - dictionary0).toNat = d := by
    have hcases : ∀ d < 4, Plain (dictionary0 + byte d) ∧ ¬ dictionary0 + byte d = 0 ∧
        ¬ dictionary0 + byte d ≤ 235 ∧ dictionary0 + byte d ≤ dictionary3 ∧
        (dictionary0 + byte d - dictionary0).toNat = d := by
      unfold Plain
      decide
    exact hcases d hd
  obtain ⟨hplain, h0, h1, h2, hno⟩ := hdict
  refine ⟨hplain, ?_⟩
  apply reads_text_str
  rw [readStringOrBytes, if_neg h0, if_neg h1, if_pos h2]
  refine Reads.next_bind (Reads.map (f := Payload.str) (Reads.lift ?_))
  rw [hno, byte_toNat hi]
  exact htok

theorem writeString_single {s : String} {i : Nat} (h : lookupSingle s = some i) :
    writeString s = .ok [byte i] := by
  rw [writeString, writeStringFuel.eq_def, if_neg (ne_empty_of_single h), h]

theorem writeString_double {s : String} {d i : Nat} (hsingle : lookupSingle s = none)
    (h : lookupDouble s = some (d, i)) :
    writeString s = .ok [dictionary0 + byte d, byte i] := by
  rw [writeString, writeStringFuel.eq_def, if_neg (ne_empty_of_double h), hsingle, h]

/-- The tags of a string that is no token and no JID. -/
def Packaged (tag : UInt8) : Prop :=
  tag = binary8 ∨ tag = binary20 ∨ tag = binary32 ∨ tag = nibble8 ∨ tag = hex8

theorem Packaged.plain {tag : UInt8} (h : Packaged tag) : Plain tag := by
  rcases h with rfl | rfl | rfl | rfl | rfl <;> exact ⟨by decide, by decide, by decide⟩

theorem Packaged.dictionary3_lt {tag : UInt8} (h : Packaged tag) : dictionary3 < tag := by
  rcases h with rfl | rfl | rfl | rfl | rfl <;> decide

theorem reads_packaged {s : String} {bs : Bytes} (hsingle : lookupSingle s = none)
    (hdouble : lookupDouble s = none) (hat : '@' ∉ s.toList) (h : writeString s = .ok bs) :
    ∃ tag tl, bs = tag :: tl ∧ Packaged tag ∧ Reads (readBytePayload tag) tl (utf8Encode s) := by
  rw [writeString, writeStringFuel.eq_def, hsingle, hdouble] at h
  have htext : String.ofList s.toList = s := String.ofList_toList
  split at h
  · rename_i hempty
    cases h
    refine ⟨binary8, [0], rfl, .inl rfl, ?_⟩
    rw [hempty]
    exact Reads.next_bind (Reads.take _ [])
  simp only at h
  split at h
  · rename_i hall
    obtain ⟨tl, rfl, hread⟩ := reads_packed (packs_of_allIn nibbleAlphabet_codes hall) h
    rw [htext] at hread
    exact ⟨nibble8, tl, rfl, .inr (.inr (.inr (.inl rfl))), hread.map⟩
  split at h
  · rename_i hall
    obtain ⟨tl, rfl, hread⟩ := reads_packed (packs_of_allIn hexAlphabet_codes hall) h
    rw [htext] at hread
    exact ⟨hex8, tl, rfl, .inr (.inr (.inr (.inr rfl))), hread.map⟩
  · obtain ⟨tag, tl, rfl, htag, hread⟩ := reads_bytePayload h
    refine ⟨tag, tl, rfl, ?_, hread⟩
    rcases htag with rfl | rfl | rfl
    · exact .inl rfl
    · exact .inr (.inl rfl)
    · exact .inr (.inr (.inl rfl))

/-- A string that is not written as a JID. -/
def SpellsText (s : String) : Prop := isToken s = false → '@' ∉ s.toList

theorem reads_text {s : String} {bs : Bytes} (hs : SpellsText s) (h : writeString s = .ok bs) :
    ∃ tag tl, bs = tag :: tl ∧ Plain tag ∧ Reads (readText tag) tl s := by
  cases hsingle : lookupSingle s with
  | some i =>
    rw [writeString_single hsingle] at h
    cases h
    exact ⟨_, _, rfl, reads_single hsingle⟩
  | none =>
    cases hdouble : lookupDouble s with
    | some p =>
      obtain ⟨d, i⟩ := p
      rw [writeString_double hsingle hdouble] at h
      cases h
      exact ⟨_, _, rfl, reads_double hdouble⟩
    | none =>
      have hat := hs (isToken_eq_false.mpr ⟨hsingle, hdouble⟩)
      obtain ⟨tag, tl, rfl, htag, hread⟩ := reads_packaged hsingle hdouble hat h
      exact ⟨tag, tl, rfl, htag.plain, reads_text_bytes htag.dictionary3_lt hread⟩

theorem reads_string {s : String} {bs : Bytes} (hat : '@' ∉ s.toList)
    (h : writeString s = .ok bs) :
    ∃ tag tl, bs = tag :: tl ∧ Plain tag ∧ Reads (readText tag) tl s := reads_text (fun _ => hat) h

theorem reads_readString {s : String} {bs : Bytes} (hat : '@' ∉ s.toList)
    (h : writeString s = .ok bs) : Reads readString bs s := by
  obtain ⟨tag, tl, rfl, -, hread⟩ := reads_string hat h
  exact Reads.next_bind hread

end Strings

end Binary

/-- The JIDs that the two JID forms keep: a device number of one byte, and next to
a device one of the four servers that have an agent byte. -/
structure JID.Encodable (jid : JID) : Prop where
  user : '@' ∉ jid.user.toList
  server : '@' ∉ jid.server.toList
  device_nonneg : 0 ≤ jid.device
  device_lt : jid.device < 256
  agent : jid.device ≠ 0 → jid.server ∈ ["s.whatsapp.net", "lid", "hosted", "hosted.lid"]

def AttrValue.Encodable : AttrValue → Prop
  | .str s => '@' ∉ s.toList
  | .int _ => False
  | .jid j => j.Encodable

/-- Attributes are a dictionary, so their keys differ. -/
structure EncodableAttrs (attrs : List (String × AttrValue)) : Prop where
  nodup : (attrs.map Prod.fst).Nodup
  key : ∀ a ∈ attrs, '@' ∉ a.1.toList
  value : ∀ a ∈ attrs, a.2.Encodable

mutual

def Node.Encodable : Node → Prop
  | .mk tag attrs content => '@' ∉ tag.toList ∧ EncodableAttrs attrs ∧ content.Encodable

def NodeContent.Encodable : NodeContent Node → Prop
  | .none => True
  | .bytes _ => True
  | .nodes children => EncodableNodes children

def EncodableNodes : List Node → Prop
  | [] => True
  | node :: rest => node.Encodable ∧ EncodableNodes rest

end

section Wired

/-- What the decoder makes of a JID: the device has one byte, and next to a device the server
has an agent byte. -/
def JID.wired (jid : JID) : JID :=
  if jid.device ≠ 0 then
    { user := jid.user
      server := Binary.agentToServer (Binary.serverToAgent jid.server)
      device := (Binary.byte (jid.device % 256).toNat).toNat }
  else jid

def AttrValue.wired : AttrValue → AttrValue
  | .str s => .str s
  | .int n => .str (toString n)
  | .jid j => .jid j.wired

def wiredAttrs (attrs : List (String × AttrValue)) : List (String × AttrValue) :=
  attrs.map fun a => (a.1, a.2.wired)

mutual

/-- The tree that comes back. -/
def Node.wired : Node → Node
  | .mk tag attrs content => .mk tag (wiredAttrs attrs) content.wired

def NodeContent.wired : NodeContent Node → NodeContent Node
  | .none => .none
  | .bytes b => .bytes b
  | .nodes children => .nodes (wiredNodes children)

def wiredNodes : List Node → List Node
  | [] => []
  | node :: rest => node.wired :: wiredNodes rest

end

def JID.Spelled (jid : JID) : Prop := '@' ∉ jid.user.toList ∧ '@' ∉ jid.server.toList

def AttrValue.Spelled : AttrValue → Prop
  | .str s => '@' ∉ s.toList
  | .int _ => True
  | .jid j => j.Spelled

structure SpelledAttrs (attrs : List (String × AttrValue)) : Prop where
  nodup : (attrs.map Prod.fst).Nodup
  key : ∀ a ∈ attrs, '@' ∉ a.1.toList
  value : ∀ a ∈ attrs, a.2.Spelled

mutual

/-- No string of the tree contains an `@`. -/
def Node.Spelled : Node → Prop
  | .mk tag attrs content => '@' ∉ tag.toList ∧ SpelledAttrs attrs ∧ content.Spelled

def NodeContent.Spelled : NodeContent Node → Prop
  | .none => True
  | .bytes _ => True
  | .nodes children => SpelledNodes children

def SpelledNodes : List Node → Prop
  | [] => True
  | node :: rest => node.Spelled ∧ SpelledNodes rest

end

theorem wiredAttrs_keys (attrs : List (String × AttrValue)) :
    (wiredAttrs attrs).map Prod.fst = attrs.map Prod.fst := by
  rw [wiredAttrs, List.map_map]
  rfl

end Wired

namespace Binary

section Attributes

theorem agentToServer_serverToAgent {server : String}
    (h : server ∈ ["s.whatsapp.net", "lid", "hosted", "hosted.lid"]) :
    agentToServer (serverToAgent server) = server := by
  simp only [List.mem_cons, List.not_mem_nil, or_false] at h
  rcases h with rfl | rfl | rfl | rfl <;> decide

theorem reads_adJid {jid : JID} {user : Bytes} (hjid : jid.Spelled)
    (huser : writeString jid.user = .ok user) :
    Reads readAdJid (serverToAgent jid.server :: byte (jid.device % 256).toNat :: user)
      { user := jid.user
        server := agentToServer (serverToAgent jid.server)
        device := (byte (jid.device % 256).toNat).toNat } :=
  Reads.next_bind (Reads.next_bind (reads_readString hjid.1 huser).map)

theorem reads_jidPair {jid : JID} {user server : Bytes} (hjid : jid.Spelled)
    (hdevice : jid.device = 0)
    (huser : writeJidUser writeString jid.user = .ok user)
    (hserver : writeString jid.server = .ok server) : Reads readJidPair (user ++ server) jid := by
  have hread : Reads readJidPair (user ++ server) { user := jid.user, server := jid.server } := by
    have htail := (reads_readString hjid.2 hserver).map
      (f := fun server => ({ user := jid.user, server := server } : JID))
    by_cases hempty : jid.user = ""
    · rw [writeJidUser, if_neg (not_not.mpr hempty)] at huser
      cases huser
      rw [hempty] at htail ⊢
      exact Reads.next_bind ((Reads.pure "").bind htail)
    · rw [writeJidUser, if_pos hempty] at huser
      obtain ⟨tag, tl, rfl, hplain, htext⟩ := reads_string hjid.1 huser
      have hread : Reads (readJidUser tag) tl jid.user := by
        rw [readJidUser, if_neg hplain.1]
        exact htext
      exact Reads.next_bind (hread.bind htail)
  obtain ⟨u, s, d⟩ := jid
  simp only at hdevice
  subst hdevice
  exact hread

theorem reads_jid {jid : JID} {bs : Bytes} (hjid : jid.Spelled) (h : writeJid jid = .ok bs) :
    Reads readAttrValue bs (.jid jid.wired) := by
  rw [writeJid, writeJidWith] at h
  rw [JID.wired]
  split at h
  · rename_i hdevice
    obtain ⟨user, huser, h⟩ := except_bind_ok.mp h
    cases h
    rw [if_pos hdevice]
    exact Reads.next_bind ((reads_adJid hjid huser).map (f := AttrValue.jid))
  · rename_i hdevice
    obtain ⟨user, huser, h⟩ := except_bind_ok.mp h
    obtain ⟨server, hserver, h⟩ := except_bind_ok.mp h
    cases h
    rw [if_neg hdevice]
    have hread := reads_jidPair hjid (not_not.mp hdevice) huser hserver
    exact Reads.next_bind (hread.map (f := AttrValue.jid))

theorem reads_attrText {s : String} {bs : Bytes} (hat : '@' ∉ s.toList)
    (h : writeString s = .ok bs) : Reads readAttrValue bs (.str s) := by
  obtain ⟨tag, tl, rfl, hplain, htext⟩ := reads_string hat h
  refine Reads.next_bind ?_
  rw [if_neg hplain.2.1, if_neg hplain.2.2]
  exact htext.map (f := AttrValue.str)

theorem mem_int {n : Int} {c : Char} (h : c ∈ (toString n).toList) :
    c = '-' ∨ c.isDigit = true := by
  have hdigits : ∀ m : Nat, c ∈ m.repr.toList → c.isDigit = true := by
    intro m hm
    rw [Nat.toList_repr] at hm
    exact Nat.isDigit_of_mem_toDigits (by decide) (by decide) hm
  rw [Int.toString_eq_repr, Int.repr_eq_if] at h
  split at h
  · exact .inr (hdigits _ h)
  · rw [String.toList_append, List.mem_append] at h
    rcases h with h | h
    · exact .inl (List.mem_singleton.mp h)
    · exact .inr (hdigits _ h)

/-- A decimal number has no `@`. -/
theorem int_spelled (n : Int) : '@' ∉ (toString n).toList := by
  intro hat
  rcases mem_int hat with h | h
  · exact absurd h (by decide)
  · exact absurd h (by decide)

theorem reads_attrValue {v : AttrValue} {bs : Bytes} (hv : v.Spelled)
    (h : writeAttrValue v = .ok bs) : Reads readAttrValue bs v.wired := by
  cases v with
  | str s => exact reads_attrText hv h
  | int n => exact reads_attrText (int_spelled n) h
  | jid j => exact reads_jid hv h

theorem reads_attrs {attrs : List (String × AttrValue)} {bs : Bytes}
    (hkey : ∀ a ∈ attrs, '@' ∉ a.1.toList) (hvalue : ∀ a ∈ attrs, a.2.Spelled)
    (h : writeAttrs attrs = .ok bs) :
    Reads (readAttr.times attrs.length) bs (wiredAttrs attrs) := by
  induction attrs generalizing bs with
  | nil =>
    cases h
    exact Reads.pure []
  | cons a rest ih =>
    obtain ⟨k, v⟩ := a
    obtain ⟨key, hk, h⟩ := except_bind_ok.mp h
    obtain ⟨value, hv, h⟩ := except_bind_ok.mp h
    obtain ⟨tail, htail, h⟩ := except_bind_ok.mp h
    cases h
    have hattr : Reads readAttr (key ++ value) (k, v.wired) :=
      (reads_readString (hkey _ List.mem_cons_self) hk).bind
        (reads_attrValue (hvalue _ List.mem_cons_self) hv).map
    have hrest := ih (fun a ha => hkey a (List.mem_cons_of_mem _ ha))
      (fun a ha => hvalue a (List.mem_cons_of_mem _ ha)) htail
    exact hattr.bind hrest.map

theorem foldl_setAttr {attrs : List (String × AttrValue)} (h : (attrs.map Prod.fst).Nodup) :
    attrs.foldl setAttr [] = attrs := by
  induction attrs using List.reverseRecOn with
  | nil => rfl
  | append_singleton front a ih =>
    rw [List.map_append, List.nodup_append] at h
    have hnew : a.1 ∉ front.map Prod.fst :=
      fun hmem => h.2.2 a.1 hmem a.1 (List.mem_singleton.mpr rfl) rfl
    rw [List.foldl_append, ih h.1, List.foldl_cons, List.foldl_nil, setAttr, if_neg hnew]

end Attributes

section Nodes

theorem contentItems_le {ν : Type} (content : NodeContent ν) : contentItems content ≤ 1 := by
  cases content <;> simp [contentItems]

mutual

theorem reads_node {fuel : Nat} {node : Node} {bs : Bytes} (hnode : node.Spelled)
    (h : writeNode node = .ok bs) (hfuel : bs.length ≤ fuel) :
    Reads (readNode fuel) bs node.wired := by
  obtain ⟨tag, attrs, content⟩ := node
  obtain ⟨hat, hattrs, hcontent⟩ := hnode
  obtain ⟨header, hheader, h⟩ := except_bind_ok.mp h
  obtain ⟨name, hname, h⟩ := except_bind_ok.mp h
  obtain ⟨attributes, hattributes, h⟩ := except_bind_ok.mp h
  obtain ⟨body, hbody, h⟩ := except_bind_ok.mp h
  cases h
  obtain ⟨listTag, tl, rfl, -, hsize⟩ := reads_listSize hheader
  cases fuel with
  | zero => exact absurd hfuel (by simp)
  | succ fuel =>
    have hcount : ¬ 1 + 2 * attrs.length + contentItems content = 0 := by omega
    have hnattrs : (1 + 2 * attrs.length + contentItems content - 1) / 2 = attrs.length := by
      have hle := contentItems_le content
      omega
    have hlast : Reads (readOptionalContent (readNode fuel)
        ((1 + 2 * attrs.length + contentItems content - 1) % 2 = 1)) body content.wired := by
      cases content with
      | none =>
        cases hbody
        rw [readOptionalContent, if_neg (by simp [contentItems])]
        exact Reads.pure _
      | bytes data =>
        rw [readOptionalContent, if_pos (by simp [contentItems])]
        exact reads_content hcontent (by simp) hbody (by simp at hfuel; omega)
      | nodes children =>
        rw [readOptionalContent, if_pos (by simp [contentItems])]
        exact reads_content hcontent (by simp) hbody (by simp at hfuel; omega)
    rw [List.append_assoc, List.append_assoc]
    refine Reads.next_bind (hsize.bind ?_)
    rw [if_neg hcount, hnattrs]
    refine (reads_readString hat hname).bind
      ((reads_attrs hattrs.key hattrs.value hattributes).bind ?_)
    rw [foldl_setAttr (wiredAttrs_keys attrs ▸ hattrs.nodup)]
    exact hlast.map

theorem reads_content {fuel : Nat} {content : NodeContent Node} {bs : Bytes}
    (hcontent : content.Spelled) (hsome : content ≠ .none) (h : writeContent content = .ok bs)
    (hfuel : bs.length ≤ fuel) : Reads (readContentWith (readNode fuel)) bs content.wired := by
  cases content with
  | none => exact absurd rfl hsome
  | bytes data =>
    obtain ⟨tag, tl, rfl, htag, hread⟩ := reads_bytePayload h
    refine Reads.next_bind ?_
    rw [if_neg (by rcases htag with rfl | rfl | rfl <;> decide)]
    exact hread.map
  | nodes children =>
    obtain ⟨header, hheader, h⟩ := except_bind_ok.mp h
    obtain ⟨body, hbody, h⟩ := except_bind_ok.mp h
    cases h
    obtain ⟨tag, tl, rfl, htag, hsize⟩ := reads_listSize hheader
    refine Reads.next_bind ?_
    rw [if_pos htag]
    refine hsize.bind (Reads.map ?_)
    refine reads_nodes hcontent hbody ?_
    simp only [List.length_append] at hfuel
    omega

theorem reads_nodes {fuel : Nat} {nodes : List Node} {bs : Bytes} (hnodes : SpelledNodes nodes)
    (h : writeNodes nodes = .ok bs) (hfuel : bs.length ≤ fuel) :
    Reads ((readNode fuel).times nodes.length) bs (wiredNodes nodes) := by
  cases nodes with
  | nil =>
    cases h
    exact Reads.pure []
  | cons node rest =>
    obtain ⟨head, hhead, h⟩ := except_bind_ok.mp h
    obtain ⟨tail, htail, h⟩ := except_bind_ok.mp h
    cases h
    rw [List.length_append] at hfuel
    exact (reads_node hnodes.1 hhead (by omega)).bind (reads_nodes hnodes.2 htail (by omega)).map

end

/-- The flags of a frame say whether its payload is compressed. -/
theorem framed_inflates {z : Zlib} (hz : ∀ data, z.decompress (z.compress data) = .ok data)
    (compress : Bool) (payload : Bytes) :
    ∃ flags data, (if compress then 0x02 :: z.compress payload else 0x00 :: payload) =
      flags :: data ∧ inflate z flags data = .ok payload := by
  cases compress with
  | false => exact ⟨0, payload, rfl, rfl⟩
  | true => exact ⟨2, z.compress payload, rfl, hz payload⟩

theorem decode_wired {z : Zlib} (hz : ∀ data, z.decompress (z.compress data) = .ok data)
    {node : Node} (hnode : node.Spelled) {compress : Bool} {frame : Bytes}
    (h : encode z node compress = .ok frame) : decode z frame = .ok node.wired := by
  obtain ⟨payload, hpayload, h⟩ := except_bind_ok.mp h
  have hread : readNode payload.length payload = .ok (node.wired, []) := by
    have hreads := reads_node hnode hpayload (Nat.le_refl _) []
    rwa [List.append_nil] at hreads
  cases h
  obtain ⟨flags, data, hframe, hinflate⟩ := framed_inflates hz compress payload
  rw [hframe, decode, hinflate]
  simp only [bind, Except.bind, hread]
  rfl

end Nodes

section Kept

theorem agentToServer_mem (agent : UInt8) :
    agentToServer agent ∈ ["s.whatsapp.net", "lid", "hosted", "hosted.lid"] := by
  rw [agentToServer]
  split
  · decide
  · split
    · decide
    · split <;> decide

theorem wired_jid_iff {jid : JID} (hdevice : 0 ≤ jid.device) :
    jid.wired = jid ↔ jid.device = 0 ∨
      (jid.device < 256 ∧ jid.server ∈ ["s.whatsapp.net", "lid", "hosted", "hosted.lid"]) := by
  by_cases hzero : jid.device = 0
  · rw [JID.wired, if_neg (not_not.mpr hzero)]
    exact iff_of_true rfl (.inl hzero)
  · have hbyte : ((byte (jid.device % 256).toNat).toNat : Int) = jid.device % 256 := by
      rw [byte_toNat (by omega)]
      omega
    rw [JID.wired, if_pos hzero, or_iff_right hzero, hbyte]
    constructor
    · intro h
      have hserver := congrArg JID.server h
      have hsame : jid.device % 256 = jid.device := congrArg JID.device h
      refine ⟨by omega, ?_⟩
      rw [← hserver]
      exact agentToServer_mem _
    · rintro ⟨hlt, hserver⟩
      have hsame : jid.device % 256 = jid.device := by omega
      rw [agentToServer_serverToAgent hserver, hsame]

theorem wired_jid {jid : JID} (h : jid.Encodable) : jid.wired = jid := by
  refine (wired_jid_iff h.device_nonneg).mpr ?_
  by_cases hzero : jid.device = 0
  · exact .inl hzero
  · exact .inr ⟨h.device_lt, h.agent hzero⟩

theorem spelled_value {v : AttrValue} (h : v.Encodable) : v.Spelled ∧ v.wired = v := by
  cases v with
  | str s => exact ⟨h, rfl⟩
  | int n => exact h.elim
  | jid j => exact ⟨⟨h.user, h.server⟩, congrArg AttrValue.jid (wired_jid h)⟩

theorem spelled_attrs {attrs : List (String × AttrValue)} (h : EncodableAttrs attrs) :
    SpelledAttrs attrs ∧ wiredAttrs attrs = attrs := by
  refine ⟨⟨h.nodup, h.key, fun a ha => (spelled_value (h.value a ha)).1⟩, ?_⟩
  rw [wiredAttrs]
  conv_rhs => rw [← List.map_id attrs]
  refine List.map_congr_left fun a ha => ?_
  rw [(spelled_value (h.value a ha)).2]
  rfl

mutual

theorem spelled_node {node : Node} (h : node.Encodable) : node.Spelled ∧ node.wired = node := by
  obtain ⟨tag, attrs, content⟩ := node
  obtain ⟨htag, hattrs, hcontent⟩ := h
  obtain ⟨hattrs, hsame⟩ := spelled_attrs hattrs
  obtain ⟨hcontent, hsame'⟩ := spelled_content hcontent
  exact ⟨⟨htag, hattrs, hcontent⟩, by rw [Node.wired, hsame, hsame']⟩

theorem spelled_content {content : NodeContent Node} (h : content.Encodable) :
    content.Spelled ∧ content.wired = content := by
  cases content with
  | none => exact ⟨trivial, rfl⟩
  | bytes b => exact ⟨trivial, rfl⟩
  | nodes children =>
    obtain ⟨hchildren, hsame⟩ := spelled_nodes h
    exact ⟨hchildren, congrArg NodeContent.nodes hsame⟩

theorem spelled_nodes {nodes : List Node} (h : EncodableNodes nodes) :
    SpelledNodes nodes ∧ wiredNodes nodes = nodes := by
  cases nodes with
  | nil => exact ⟨trivial, rfl⟩
  | cons node rest =>
    obtain ⟨hnode, hsame⟩ := spelled_node h.1
    obtain ⟨hrest, hsame'⟩ := spelled_nodes h.2
    exact ⟨⟨hnode, hrest⟩, by rw [wiredNodes, hsame, hsame']⟩

end

theorem decode_encode {z : Zlib} (hz : ∀ data, z.decompress (z.compress data) = .ok data)
    {node : Node} (hnode : node.Encodable) {compress : Bool} {frame : Bytes}
    (h : encode z node compress = .ok frame) : decode z frame = .ok node := by
  obtain ⟨hspelled, hsame⟩ := spelled_node hnode
  have hdecode := decode_wired hz hspelled h
  rwa [hsame] at hdecode

def demoStanza : Node :=
  .mk "message" [("to", .jid { user := "" }),
      ("from", .jid { user := "49123", server := "lid", device := 7 })]
    (.nodes [.mk "enc" [] (.bytes [1, 2, 3]), .mk "ack" [] .none])

theorem demoStanza_encodable : demoStanza.Encodable := by
  have hserver : JID.Encodable { user := "" } :=
    ⟨by decide, by decide, by decide, by decide, by decide⟩
  have hdevice : JID.Encodable { user := "49123", server := "lid", device := 7 } :=
    ⟨by decide, by decide, by decide, by decide, by decide⟩
  have hnone : EncodableAttrs [] := ⟨by decide, by decide, by simp⟩
  refine ⟨by decide, ⟨by decide, by decide, ?_⟩, ?_⟩
  · simp only [List.mem_cons, List.not_mem_nil, or_false]
    rintro a (rfl | rfl)
    · exact hserver
    · exact hdevice
  · exact ⟨⟨by decide, hnone, trivial⟩, ⟨by decide, hnone, trivial⟩, trivial⟩

theorem decode_encode_message : ∃ frame, encode ⟨id, .ok⟩ demoStanza false = .ok frame ∧
    decode ⟨id, .ok⟩ frame = .ok demoStanza := by
  have hencode : encode ⟨id, .ok⟩ demoStanza false = .ok
      [0, 248, 6, 19, 17, 250, 0, 3, 6, 247, 1, 7, 255, 131, 73, 18, 63, 248, 2, 248, 2, 29, 252, 3,
       1, 2, 3, 248, 1, 27] := by
    decide +kernel
  exact ⟨_, hencode, decode_encode (fun _ => rfl) demoStanza_encodable hencode⟩

end Kept

end Binary

end PyWhats
