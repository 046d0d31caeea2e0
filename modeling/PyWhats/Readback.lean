import PyWhats.RoundTrip

/-! Everything that `encode` takes, with the types it tests for at run time: attribute
values that are text, numbers, flags, JIDs or byte strings, and contents that are byte
strings, text or children. One writer serves strings in every position, while the decoder
has a reader for each: which trees come back with their tags, keys and shape. -/

namespace PyWhats

open Reader (Reads Refuses ReadsIff)
open Binary (SpellsText)

inductive OutValue where
  | str (s : String)
  | int (n : Int)
  | bool (b : Bool)
  | jid (j : JID)
  | bytes (b : Bytes)

structure OutAttrs where
  items : List (String × OutValue)
  nodup : (items.map Prod.fst).Nodup

inductive OutContent (ν : Type) where
  | none
  | bytes (b : Bytes)
  | str (s : String)
  | nodes (children : List ν)

inductive OutNode where
  | mk (tag : String) (attrs : OutAttrs) (content : OutContent OutNode)

namespace Binary

section Writers

def writeOutValue : OutValue → Except PyError Bytes
  | .jid j => writeJid j
  | .bool b => writeString (if b then "true" else "false")
  | .int n => writeString (toString n)
  | .bytes b => writeBytes b
  | .str s => writeString s

def writeOutAttrs : List (String × OutValue) → Except PyError Bytes
  | [] => .ok []
  | (k, v) :: rest => do
    let key ← writeString k
    let value ← writeOutValue v
    let tail ← writeOutAttrs rest
    return key ++ value ++ tail

def outContentItems {ν : Type} : OutContent ν → Nat
  | .none => 0
  | .bytes _ | .str _ | .nodes _ => 1

mutual

def writeOutNode : OutNode → Except PyError Bytes
  | .mk tag attrs content => do
    let header ← writeListHeader (1 + 2 * attrs.items.length + outContentItems content)
    let name ← writeString tag
    let attributes ← writeOutAttrs attrs.items
    let body ← writeOutContent content
    return header ++ name ++ attributes ++ body

def writeOutContent : OutContent OutNode → Except PyError Bytes
  | .none => .ok []
  | .bytes data => writeBytes data
  | .str s => writeString s
  | .nodes children => do
    let header ← writeListHeader children.length
    let body ← writeOutNodes children
    return header ++ body

def writeOutNodes : List OutNode → Except PyError Bytes
  | [] => .ok []
  | node :: rest => do
    let head ← writeOutNode node
    let tail ← writeOutNodes rest
    return head ++ tail

end

def encodeOut (z : Zlib) (node : OutNode) (compress : Bool) : Except PyError Bytes := do
  let payload ← writeOutNode node
  return if compress then 0x02 :: z.compress payload else 0x00 :: payload

end Writers

end Binary

section Typed

/-- The value as the annotations of `Node` have it. -/
def OutValue.typed? : OutValue → Option AttrValue
  | .str s => some (.str s)
  | .int n => some (.int n)
  | .jid j => some (.jid j)
  | .bool _ | .bytes _ => none

def typedAttrs? : List (String × OutValue) → Option (List (String × AttrValue))
  | [] => some []
  | (k, v) :: rest => do
    let value ← v.typed?
    let tail ← typedAttrs? rest
    return (k, value) :: tail

mutual

def OutNode.typed? : OutNode → Option Node
  | .mk tag attrs content => do
    let attributes ← typedAttrs? attrs.items
    let body ← content.typed?
    return .mk tag attributes body

def OutContent.typed? : OutContent OutNode → Option (NodeContent Node)
  | .none => some .none
  | .bytes b => some (.bytes b)
  | .str _ => none
  | .nodes children => do
    let nodes ← typedNodes? children
    return .nodes nodes

def typedNodes? : List OutNode → Option (List Node)
  | [] => some []
  | node :: rest => do
    let head ← node.typed?
    let tail ← typedNodes? rest
    return head :: tail

end

end Typed

section Property

mutual

def SameShape : OutNode → Node → Prop
  | .mk tag attrs content, .mk tag' attrs' content' =>
    tag' = tag ∧ attrs'.map Prod.fst = attrs.items.map Prod.fst ∧ SameContent content content'

/-- Text comes back as the byte string it was written as. -/
def SameContent : OutContent OutNode → NodeContent Node → Prop
  | .none, .none => True
  | .bytes _, .bytes _ => True
  | .str _, .bytes _ => True
  | .nodes children, .nodes children' => SameNodes children children'
  | _, _ => False

def SameNodes : List OutNode → List Node → Prop
  | [], [] => True
  | node :: rest, node' :: rest' => SameShape node node' ∧ SameNodes rest rest'
  | _, _ => False

end

/-- What the reader of attribute values makes of one. -/
def OutValue.ReadAs : OutValue → AttrValue → Prop
  | .str s, v => (SpellsText s ∧ v = .str s) ∨
    (¬ SpellsText s ∧ ∃ jid, parseJid s = .ok jid ∧ v = .jid jid.wired)
  | .int n, v => v = .str (toString n)
  | .bool b, v => v = .str (if b then "true" else "false")
  | .jid j, v => v = .jid j.wired
  | .bytes b, v => ∃ s, Binary.utf8Decode b = .ok s ∧ v = .str s

def ReadAsAttrs : List (String × OutValue) → List (String × AttrValue) → Prop :=
  List.Forall₂ fun a a' => a'.1 = a.1 ∧ a.2.ReadAs a'.2

mutual

def OutNode.ReadAs : OutNode → Node → Prop
  | .mk tag attrs content, .mk tag' attrs' content' =>
    tag' = tag ∧ ReadAsAttrs attrs.items attrs' ∧ OutContent.ReadAs content content'

def OutContent.ReadAs : OutContent OutNode → NodeContent Node → Prop
  | .none, .none => True
  | .bytes b, .bytes b' => b' = b
  | .str s, .bytes b => b = Binary.utf8Encode s
  | .nodes children, .nodes children' => ReadAsNodes children children'
  | _, _ => False

def ReadAsNodes : List OutNode → List Node → Prop
  | [], [] => True
  | node :: rest, node' :: rest' => OutNode.ReadAs node node' ∧ ReadAsNodes rest rest'
  | _, _ => False

end

theorem ReadAsAttrs.keys {attrs : List (String × OutValue)} {attrs' : List (String × AttrValue)}
    (h : ReadAsAttrs attrs attrs') : attrs'.map Prod.fst = attrs.map Prod.fst := by
  induction h with
  | nil => rfl
  | cons ha _ ih => rw [List.map_cons, List.map_cons, ha.1, ih]

mutual

theorem OutNode.ReadAs.sameShape {out : OutNode} {node : Node} (h : OutNode.ReadAs out node) :
    SameShape out node := by
  obtain ⟨tag, attrs, content⟩ := out
  obtain ⟨tag', attrs', content'⟩ := node
  exact ⟨h.1, h.2.1.keys, OutContent.ReadAs.sameContent h.2.2⟩

theorem OutContent.ReadAs.sameContent {content : OutContent OutNode} {content' : NodeContent Node}
    (h : OutContent.ReadAs content content') : SameContent content content' := by
  cases content <;> cases content'
  case nodes.nodes children children' => exact ReadAsNodes.sameNodes h
  all_goals trivial

theorem ReadAsNodes.sameNodes {outs : List OutNode} {nodes : List Node}
    (h : ReadAsNodes outs nodes) : SameNodes outs nodes := by
  cases outs with
  | nil =>
    cases nodes with
    | nil => trivial
    | cons => exact h
  | cons out rest =>
    cases nodes with
    | nil => exact h
    | cons => exact ⟨OutNode.ReadAs.sameShape h.1, ReadAsNodes.sameNodes h.2⟩

end

/-- A string that is written neither as a JID nor as a token. -/
def SpellsBytes (s : String) : Prop := '@' ∉ s.toList ∧ Binary.isToken s = false

/-- The server is not written next to a device. -/
def JID.Readable (jid : JID) : Prop :=
  SpellsText jid.user ∧ (jid.device = 0 → SpellsText jid.server)

def OutValue.Readable : OutValue → Prop
  | .str s => SpellsText s ∨ ∀ jid, parseJid s = .ok jid → jid.Readable
  | .int _ | .bool _ => True
  | .jid j => j.Readable
  | .bytes b => (Binary.utf8Decode b).isOk = true

mutual

def OutNode.Readable : OutNode → Prop
  | .mk tag attrs content => SpellsText tag ∧
    (∀ a ∈ attrs.items, SpellsText a.1 ∧ a.2.Readable) ∧ content.Readable

def OutContent.Readable : OutContent OutNode → Prop
  | .none => True
  | .bytes _ => True
  | .str s => SpellsBytes s
  | .nodes children => ReadableNodes children

def ReadableNodes : List OutNode → Prop
  | [] => True
  | node :: rest => node.Readable ∧ ReadableNodes rest

end

end Property

namespace Binary

section Strings

theorem writeString_jid {s : String} (htoken : isToken s = false) (hat : '@' ∈ s.toList) :
    writeString s = parseJid s >>= writeJid := by
  obtain ⟨hsingle, hdouble⟩ := isToken_eq_false.mp htoken
  have hne : s ≠ "" := by
    rintro rfl
    simp at hat
  obtain ⟨n, hn⟩ : ∃ n, s.toList.length = n + 1 :=
    ⟨s.toList.length - 1, by have := List.length_pos_of_mem hat; omega⟩
  rw [writeString, writeStringFuel.eq_def, if_neg hne, hsingle, hdouble]
  simp only [hat, if_true, hn]
  cases hparse : parseJid s with
  | error e => rfl
  | ok jid =>
    obtain ⟨huser, hserver⟩ := parseJid_length_lt hat hparse
    exact writeJidWith_congr (writeStringFuel_eq (by omega) (Nat.le_refl _))
      (writeStringFuel_eq (by omega) (Nat.le_refl _))

theorem writeJid_tag {jid : JID} {bs : Bytes} (h : writeJid jid = .ok bs) :
    ∃ tag tl, bs = tag :: tl ∧ (tag = jidPair ∨ tag = adJid) := by
  rw [writeJid, writeJidWith] at h
  split at h
  · obtain ⟨user, -, h⟩ := except_bind_ok.mp h
    cases h
    exact ⟨_, _, rfl, .inr rfl⟩
  · obtain ⟨user, -, h⟩ := except_bind_ok.mp h
    obtain ⟨server, -, h⟩ := except_bind_ok.mp h
    cases h
    exact ⟨_, _, rfl, .inl rfl⟩

theorem writeString_tag {s : String} {bs : Bytes} (hs : ¬ SpellsText s)
    (h : writeString s = .ok bs) : ∃ tag tl, bs = tag :: tl ∧ (tag = jidPair ∨ tag = adJid) := by
  obtain ⟨htoken, hat⟩ := Classical.not_imp.mp hs
  rw [writeString_jid htoken (not_not.mp hat)] at h
  obtain ⟨jid, -, hjid⟩ := except_bind_ok.mp h
  exact writeJid_tag hjid

theorem refuses_text {tag : UInt8} (htag : tag = jidPair ∨ tag = adJid) (tl : Bytes) :
    Refuses (readText tag) tl := by
  intro rest
  rcases htag with rfl | rfl
  · exact ⟨_, rfl⟩
  · exact ⟨_, rfl⟩

theorem readsIff_text {s : String} {bs : Bytes} (h : writeString s = .ok bs) :
    ∃ tag tl, bs = tag :: tl ∧ tag ≠ listEmpty ∧
      ReadsIff (SpellsText s) (readText tag) tl (· = s) := by
  by_cases hs : SpellsText s
  · obtain ⟨tag, tl, rfl, hplain, hread⟩ := reads_text hs h
    exact ⟨tag, tl, rfl, hplain.1, hread.readsIff rfl hs⟩
  · obtain ⟨tag, tl, rfl, htag⟩ := writeString_tag hs h
    refine ⟨tag, tl, rfl, ?_, (refuses_text htag tl).readsIff hs⟩
    rcases htag with rfl | rfl <;> decide

theorem readsIff_readString {s : String} {bs : Bytes} (h : writeString s = .ok bs) :
    ReadsIff (SpellsText s) readString bs (· = s) := by
  obtain ⟨tag, tl, rfl, -, hread⟩ := readsIff_text h
  exact ReadsIff.next_bind hread

end Strings

section Attributes

theorem readsIff_jidUser {user : String} {bs : Bytes}
    (h : writeJidUser writeString user = .ok bs) :
    ∃ tag tl, bs = tag :: tl ∧ ReadsIff (SpellsText user) (readJidUser tag) tl (· = user) := by
  by_cases hempty : user = ""
  · rw [writeJidUser, if_neg (not_not.mpr hempty)] at h
    cases h
    have hspells : SpellsText user := by
      intro _ hat
      simp [hempty] at hat
    exact ⟨listEmpty, [], rfl, (Reads.pure "").readsIff hempty.symm hspells⟩
  · rw [writeJidUser, if_pos hempty] at h
    obtain ⟨tag, tl, rfl, hne, hread⟩ := readsIff_text h
    refine ⟨tag, tl, rfl, ?_⟩
    rw [readJidUser, if_neg hne]
    exact hread

theorem readsIff_adJid {jid : JID} {user : Bytes} (huser : writeString jid.user = .ok user) :
    ReadsIff (SpellsText jid.user) readAdJid
      (serverToAgent jid.server :: byte (jid.device % 256).toNat :: user)
      (· = { user := jid.user
             server := agentToServer (serverToAgent jid.server)
             device := (byte (jid.device % 256).toNat).toNat }) := by
  refine ReadsIff.next_bind (ReadsIff.next_bind (ReadsIff.map ?_))
  exact (readsIff_readString huser).weaken fun u hu => by rw [hu]

theorem readsIff_jidPair {jid : JID} {user server : Bytes} (hdevice : jid.device = 0)
    (huser : writeJidUser writeString jid.user = .ok user)
    (hserver : writeString jid.server = .ok server) :
    ReadsIff (SpellsText jid.user ∧ SpellsText jid.server) readJidPair (user ++ server)
      (· = jid) := by
  obtain ⟨tag, tl, rfl, huser'⟩ := readsIff_jidUser huser
  refine ReadsIff.next_bind (huser'.bind fun u hu => ReadsIff.map ?_)
  refine (readsIff_readString hserver).weaken fun s hs => ?_
  rw [hu, hs, ← hdevice]

theorem readsIff_jid {jid : JID} {bs : Bytes} (h : writeJid jid = .ok bs) :
    ReadsIff jid.Readable readAttrValue bs (· = .jid jid.wired) := by
  rw [writeJid, writeJidWith] at h
  rw [JID.wired]
  split at h
  · rename_i hdevice
    obtain ⟨user, huser, h⟩ := except_bind_ok.mp h
    cases h
    have hiff : SpellsText jid.user ↔ jid.Readable :=
      ⟨fun hu => ⟨hu, fun hzero => absurd hzero hdevice⟩, fun hj => hj.1⟩
    rw [if_pos hdevice]
    refine (ReadsIff.next_bind (ReadsIff.map ?_)).congr hiff
    exact (readsIff_adJid huser).weaken fun j hj => congrArg AttrValue.jid hj
  · rename_i hdevice
    obtain ⟨user, huser, h⟩ := except_bind_ok.mp h
    obtain ⟨server, hserver, h⟩ := except_bind_ok.mp h
    cases h
    have hzero := not_not.mp hdevice
    have hiff : SpellsText jid.user ∧ SpellsText jid.server ↔ jid.Readable :=
      ⟨fun hj => ⟨hj.1, fun _ => hj.2⟩, fun hj => ⟨hj.1, hj.2 hzero⟩⟩
    rw [if_neg hdevice]
    refine (ReadsIff.next_bind (ReadsIff.map ?_)).congr hiff
    exact (readsIff_jidPair hzero huser hserver).weaken fun j hj => congrArg AttrValue.jid hj

theorem readsIff_plainValue {ok : Prop} {tag : UInt8} {tl : Bytes} {Post : AttrValue → Prop}
    (hplain : Plain tag) (h : ReadsIff ok (readText tag) tl fun s => Post (.str s)) :
    ReadsIff ok readAttrValue (tag :: tl) Post := by
  refine ReadsIff.next_bind ?_
  rw [if_neg hplain.2.1, if_neg hplain.2.2]
  exact h.map

theorem readsIff_valueText {s : String} {bs : Bytes} (h : writeString s = .ok bs) :
    ReadsIff (OutValue.str s).Readable readAttrValue bs (OutValue.str s).ReadAs := by
  by_cases hs : SpellsText s
  · obtain ⟨tag, tl, rfl, hplain, hread⟩ := reads_text hs h
    exact readsIff_plainValue hplain (hread.readsIff (.inl ⟨hs, rfl⟩) (.inl hs))
  · obtain ⟨htoken, hat⟩ := Classical.not_imp.mp hs
    rw [writeString_jid htoken (not_not.mp hat)] at h
    obtain ⟨jid, hparse, h⟩ := except_bind_ok.mp h
    have hiff : jid.Readable ↔ (OutValue.str s).Readable := by
      refine ⟨fun hj => .inr fun jid' hparse' => ?_, fun hv => ?_⟩
      · cases hparse.symm.trans hparse'
        exact hj
      · exact (hv.resolve_left hs) jid hparse
    exact ((readsIff_jid h).congr hiff).weaken fun v hv => .inr ⟨hs, jid, hparse, hv⟩

theorem readsIff_valueBytes {b bs : Bytes} (h : writeBytes b = .ok bs) :
    ReadsIff (OutValue.bytes b).Readable readAttrValue bs (OutValue.bytes b).ReadAs := by
  obtain ⟨tag, tl, rfl, htag, hread⟩ := reads_bytePayload h
  have hpackaged : Packaged tag := htag.elim .inl fun h => .inr (h.elim .inl fun h => .inr (.inl h))
  apply readsIff_plainValue hpackaged.plain
  have hpayload := reads_payload_bytes hpackaged.dictionary3_lt hread
  rw [← List.append_nil tl]
  cases hdecode : utf8Decode b with
  | ok s =>
    have htext := hpayload.bind (f := fun v => (StateT.lift v.text : ByteReader String))
      (Reads.lift hdecode)
    refine htext.readsIff ⟨s, hdecode, rfl⟩ ?_
    rw [OutValue.Readable, hdecode]
    rfl
  | error e =>
    have htext := hpayload.bind_refuses
      (f := fun v => (StateT.lift v.text : ByteReader String)) (Refuses.lift hdecode)
    refine htext.readsIff ?_
    rw [OutValue.Readable, hdecode]
    simp [Except.isOk, Except.toBool]

theorem spellsText_int (n : Int) : SpellsText (toString n) := fun _ => int_spelled n

theorem spellsText_bool (b : Bool) : SpellsText (if b then "true" else "false") := by
  intro _
  cases b <;> decide

theorem readsIff_spelled {s : String} {bs : Bytes} (hs : SpellsText s)
    (h : writeString s = .ok bs) : ReadsIff True readAttrValue bs (· = .str s) := by
  refine ((readsIff_valueText h).congr ⟨fun _ => trivial, fun _ => .inl hs⟩).weaken ?_
  rintro v (⟨-, hv⟩ | ⟨hnot, -⟩)
  · exact hv
  · exact absurd hs hnot

theorem readsIff_value {v : OutValue} {bs : Bytes} (h : writeOutValue v = .ok bs) :
    ReadsIff v.Readable readAttrValue bs v.ReadAs := by
  cases v with
  | str s => exact readsIff_valueText h
  | int n => exact readsIff_spelled (spellsText_int n) h
  | bool b => exact readsIff_spelled (spellsText_bool b) h
  | jid j => exact readsIff_jid h
  | bytes b => exact readsIff_valueBytes h

theorem readsIff_attrs {attrs : List (String × OutValue)} {bs : Bytes}
    (h : writeOutAttrs attrs = .ok bs) :
    ReadsIff (∀ a ∈ attrs, SpellsText a.1 ∧ a.2.Readable) (readAttr.times attrs.length) bs
      (ReadAsAttrs attrs) := by
  induction attrs generalizing bs with
  | nil =>
    cases h
    exact (Reads.pure []).readsIff List.Forall₂.nil fun a ha => by cases ha
  | cons a rest ih =>
    obtain ⟨k, v⟩ := a
    obtain ⟨key, hkey, h⟩ := except_bind_ok.mp h
    obtain ⟨value, hvalue, h⟩ := except_bind_ok.mp h
    obtain ⟨tail, htail, h⟩ := except_bind_ok.mp h
    cases h
    have hattr : ReadsIff (SpellsText k ∧ v.Readable) readAttr (key ++ value)
        fun attr => attr.1 = k ∧ v.ReadAs attr.2 := by
      refine (readsIff_readString hkey).bind fun k' hk => ?_
      exact ReadsIff.map (g := fun v' => (k', v'))
        ((readsIff_value hvalue).weaken fun v' hv => ⟨hk, hv⟩)
    rw [List.forall_mem_cons]
    refine hattr.bind fun attr hattr' => ?_
    exact ReadsIff.map (g := fun attrs' => attr :: attrs')
      ((ih htail).weaken fun attrs' hrest => List.Forall₂.cons hattr' hrest)

end Attributes

section Nodes

theorem outContentItems_le {ν : Type} (content : OutContent ν) : outContentItems content ≤ 1 := by
  cases content <;> simp [outContentItems]

theorem readContentWith_bytes {fuel : Nat} {tag : UInt8} {tl : Bytes}
    (htag : ¬ (tag = listEmpty ∨ tag = list8 ∨ tag = list16)) {ok : Prop}
    {data : Bytes} (h : ReadsIff ok (readBytePayload tag) tl (· = data)) :
    ReadsIff ok (readContentWith (readNode fuel)) (tag :: tl) (· = .bytes data) := by
  refine ReadsIff.next_bind ?_
  rw [if_neg htag]
  exact ReadsIff.map (g := NodeContent.bytes) (h.weaken fun b hb => congrArg _ hb)

theorem Packaged.not_list {tag : UInt8} (h : Packaged tag) :
    ¬ (tag = listEmpty ∨ tag = list8 ∨ tag = list16) := by
  rcases h with rfl | rfl | rfl | rfl | rfl <;> decide

theorem refuses_payload {tag : UInt8} (htag : tag ≤ dictionary3) (tl : Bytes) :
    Refuses (readBytePayload tag) tl := by
  have hle : tag.toNat ≤ 239 := htag
  have hne : ∀ t : UInt8, 239 < t.toNat → tag ≠ t := by
    rintro t ht rfl
    omega
  intro rest
  rw [readBytePayload, if_neg (hne _ (by decide)), if_neg (hne _ (by decide)),
    if_neg (hne _ (by decide)), if_neg (hne _ (by decide)), if_neg (hne _ (by decide))]
  exact ⟨_, rfl⟩

theorem writeString_token {s : String} {bs : Bytes} (htoken : isToken s = true)
    (h : writeString s = .ok bs) :
    ∃ tag tl, bs = tag :: tl ∧ tag ≠ listEmpty ∧ tag ≤ dictionary3 := by
  cases hsingle : lookupSingle s with
  | some i =>
    rw [writeString_single hsingle] at h
    cases h
    obtain ⟨-, hlt, -⟩ := lookupSingle_spec hsingle
    have hle : (byte i).toNat ≤ 239 := by
      rw [byte_toNat (by omega)]
      omega
    exact ⟨_, _, rfl, (reads_single hsingle).1.1, hle⟩
  | none =>
    cases hdouble : lookupDouble s with
    | some p =>
      obtain ⟨d, i⟩ := p
      rw [writeString_double hsingle hdouble] at h
      cases h
      have hle : ∀ d < 4, dictionary0 + byte d ≤ dictionary3 := by decide
      exact ⟨_, _, rfl, (reads_double hdouble).1.1, hle d (lookupDouble_spec hdouble).1⟩
    | none =>
      rw [isToken_eq_false.mpr ⟨hsingle, hdouble⟩] at htoken
      cases htoken

theorem readsIff_contentText {fuel : Nat} {s : String} {bs : Bytes} (h : writeString s = .ok bs) :
    ReadsIff (SpellsBytes s) (readContentWith (readNode fuel)) bs
      (· = .bytes (utf8Encode s)) := by
  by_cases htoken : isToken s = true
  · have hnot : ¬ SpellsBytes s := fun hs => by
      rw [hs.2] at htoken
      cases htoken
    obtain ⟨tag, tl, rfl, hne, hle⟩ := writeString_token htoken h
    have hlist : ∀ t : UInt8, 239 < t.toNat → tag ≠ t := by
      rintro t ht rfl
      exact absurd (show tag.toNat ≤ 239 from hle) (by omega)
    refine readContentWith_bytes ?_ ((refuses_payload hle tl).readsIff hnot)
    rintro (heq | heq | heq)
    · exact hne heq
    · exact hlist _ (by decide) heq
    · exact hlist _ (by decide) heq
  · rw [Bool.not_eq_true] at htoken
    obtain ⟨hsingle, hdouble⟩ := isToken_eq_false.mp htoken
    by_cases hat : '@' ∈ s.toList
    · have hnot : ¬ SpellsBytes s := fun hs => hs.1 hat
      obtain ⟨tag, tl, rfl, htag⟩ := writeString_tag (fun hs => hs htoken hat) h
      refine readContentWith_bytes ?_ (Refuses.readsIff ?_ hnot)
      · rcases htag with rfl | rfl <;> decide
      · intro rest
        rcases htag with rfl | rfl
        · exact ⟨_, rfl⟩
        · exact ⟨_, rfl⟩
    · obtain ⟨tag, tl, rfl, htag, hread⟩ := reads_packaged hsingle hdouble hat h
      exact readContentWith_bytes htag.not_list (hread.readsIff rfl ⟨hat, htoken⟩)

mutual

theorem readsIff_node {fuel : Nat} {node : OutNode} {bs : Bytes} (h : writeOutNode node = .ok bs)
    (hfuel : bs.length ≤ fuel) :
    ReadsIff node.Readable (readNode fuel) bs (OutNode.ReadAs node) := by
  obtain ⟨tag, attrs, content⟩ := node
  obtain ⟨header, hheader, h⟩ := except_bind_ok.mp h
  obtain ⟨name, hname, h⟩ := except_bind_ok.mp h
  obtain ⟨attributes, hattributes, h⟩ := except_bind_ok.mp h
  obtain ⟨body, hbody, h⟩ := except_bind_ok.mp h
  cases h
  obtain ⟨listTag, tl, rfl, -, hsize⟩ := reads_listSize hheader
  cases fuel with
  | zero => exact absurd hfuel (by simp)
  | succ fuel =>
    have hcount : ¬ 1 + 2 * attrs.items.length + outContentItems content = 0 := by omega
    have hnattrs : (1 + 2 * attrs.items.length + outContentItems content - 1) / 2 =
        attrs.items.length := by
      have hle := outContentItems_le content
      omega
    have hlast : (1 + 2 * attrs.items.length + outContentItems content - 1) % 2 =
        outContentItems content := by
      have hle := outContentItems_le content
      omega
    have hbodyFuel : body.length ≤ fuel := by
      simp only [List.length_append, List.length_cons] at hfuel
      omega
    have hcontent := readsIff_content hbody hbodyFuel
    rw [List.append_assoc, List.append_assoc]
    refine ReadsIff.next_bind (hsize.bind_readsIff ?_)
    rw [if_neg hcount, hnattrs, hlast]
    refine (readsIff_readString hname).bind fun tag' htag => ?_
    refine (readsIff_attrs hattributes).bind fun attrs' hattrs => ?_
    have hsame : attrs'.foldl setAttr [] = attrs' := foldl_setAttr (hattrs.keys ▸ attrs.nodup)
    rw [hsame]
    exact ReadsIff.map (g := fun content' => Node.mk tag' attrs' content')
      (hcontent.weaken fun content' hcontent' => ⟨htag, hattrs, hcontent'⟩)

theorem readsIff_content {fuel : Nat} {content : OutContent OutNode} {bs : Bytes}
    (h : writeOutContent content = .ok bs) (hfuel : bs.length ≤ fuel) :
    ReadsIff content.Readable
      (readOptionalContent (readNode fuel) (outContentItems content = 1)) bs
      (OutContent.ReadAs content) := by
  cases content with
  | none =>
    cases h
    exact (Reads.pure NodeContent.none).readsIff trivial trivial
  | bytes data =>
    obtain ⟨tag, tl, rfl, htag, hread⟩ := reads_bytePayload h
    have hlist : ¬ (tag = listEmpty ∨ tag = list8 ∨ tag = list16) := by
      rcases htag with rfl | rfl | rfl <;> decide
    have hbytes : ReadsIff True (readBytePayload tag) tl (· = data) := hread.readsIff rfl trivial
    refine (readContentWith_bytes hlist hbytes).weaken ?_
    rintro content rfl
    exact rfl
  | str s =>
    refine (readsIff_contentText h).weaken ?_
    rintro content rfl
    exact rfl
  | nodes children =>
    obtain ⟨header, hheader, h⟩ := except_bind_ok.mp h
    obtain ⟨body, hbody, h⟩ := except_bind_ok.mp h
    cases h
    obtain ⟨tag, tl, rfl, htag, hsize⟩ := reads_listSize hheader
    have hbodyFuel : body.length ≤ fuel := by
      simp only [List.length_append, List.length_cons] at hfuel
      omega
    refine ReadsIff.next_bind ?_
    rw [if_pos htag]
    refine hsize.bind_readsIff ?_
    exact ReadsIff.map (g := NodeContent.nodes) (readsIff_nodes hbody hbodyFuel)

theorem readsIff_nodes {fuel : Nat} {nodes : List OutNode} {bs : Bytes}
    (h : writeOutNodes nodes = .ok bs) (hfuel : bs.length ≤ fuel) :
    ReadsIff (ReadableNodes nodes) ((readNode fuel).times nodes.length) bs
      (ReadAsNodes nodes) := by
  cases nodes with
  | nil =>
    cases h
    exact (Reads.pure []).readsIff trivial trivial
  | cons node rest =>
    obtain ⟨head, hhead, h⟩ := except_bind_ok.mp h
    obtain ⟨tail, htail, h⟩ := except_bind_ok.mp h
    cases h
    rw [List.length_append] at hfuel
    refine (readsIff_node hhead (by omega)).bind fun node' hnode => ?_
    exact ReadsIff.map (g := fun rest' => node' :: rest')
      ((readsIff_nodes htail (by omega)).weaken fun rest' hrest => ⟨hnode, hrest⟩)

end

end Nodes

section Typed

theorem writeOutAttrs_typed {items : List (String × OutValue)} {attrs : List (String × AttrValue)}
    (h : typedAttrs? items = some attrs) :
    writeOutAttrs items = writeAttrs attrs ∧ items.length = attrs.length := by
  induction items generalizing attrs with
  | nil =>
    cases h
    exact ⟨rfl, rfl⟩
  | cons a rest ih =>
    obtain ⟨k, v⟩ := a
    obtain ⟨value, hvalue, h⟩ := Option.bind_eq_some_iff.mp h
    obtain ⟨tail, htail, h⟩ := Option.bind_eq_some_iff.mp h
    cases h
    obtain ⟨hwrite, hlength⟩ := ih htail
    have hv : writeOutValue v = writeAttrValue value := by
      cases v <;> cases hvalue <;> rfl
    rw [writeOutAttrs, writeAttrs, hv, hwrite, List.length_cons, List.length_cons, hlength]
    exact ⟨rfl, rfl⟩

mutual

theorem writeOutNode_typed {out : OutNode} {node : Node} (h : out.typed? = some node) :
    writeOutNode out = writeNode node := by
  obtain ⟨tag, attrs, content⟩ := out
  obtain ⟨attributes, hattrs, h⟩ := Option.bind_eq_some_iff.mp h
  obtain ⟨body, hbody, h⟩ := Option.bind_eq_some_iff.mp h
  cases h
  obtain ⟨hwrite, hlength⟩ := writeOutAttrs_typed hattrs
  obtain ⟨hcontent, hitems⟩ := writeOutContent_typed hbody
  rw [writeOutNode, writeNode, hwrite, hlength, hcontent, hitems]

theorem writeOutContent_typed {out : OutContent OutNode} {content : NodeContent Node}
    (h : out.typed? = some content) :
    writeOutContent out = writeContent content ∧ outContentItems out = contentItems content := by
  cases out with
  | none =>
    cases h
    exact ⟨rfl, rfl⟩
  | bytes b =>
    cases h
    exact ⟨rfl, rfl⟩
  | str s => cases h
  | nodes children =>
    obtain ⟨nodes, hnodes, h⟩ := Option.bind_eq_some_iff.mp h
    cases h
    obtain ⟨hwrite, hlength⟩ := writeOutNodes_typed hnodes
    rw [writeOutContent, writeContent, hwrite, hlength]
    exact ⟨rfl, rfl⟩

theorem writeOutNodes_typed {outs : List OutNode} {nodes : List Node}
    (h : typedNodes? outs = some nodes) :
    writeOutNodes outs = writeNodes nodes ∧ outs.length = nodes.length := by
  cases outs with
  | nil =>
    cases h
    exact ⟨rfl, rfl⟩
  | cons out rest =>
    obtain ⟨head, hhead, h⟩ := Option.bind_eq_some_iff.mp h
    obtain ⟨tail, htail, h⟩ := Option.bind_eq_some_iff.mp h
    cases h
    obtain ⟨hwrite, hlength⟩ := writeOutNodes_typed htail
    rw [writeOutNodes, writeNodes, writeOutNode_typed hhead, hwrite, List.length_cons,
      List.length_cons, hlength]
    exact ⟨rfl, rfl⟩

end

theorem encodeOut_typed {out : OutNode} {node : Node} (h : out.typed? = some node) (z : Zlib)
    (compress : Bool) : encodeOut z out compress = encode z node compress := by
  rw [encodeOut, encode, writeOutNode_typed h]

end Typed

section Frames

theorem decode_iff {z : Zlib} (hz : ∀ data, z.decompress (z.compress data) = .ok data)
    {node : OutNode} {compress : Bool} {frame : Bytes}
    (h : encodeOut z node compress = .ok frame) :
    (node.Readable → ∃ node', decode z frame = .ok node' ∧ OutNode.ReadAs node node') ∧
      (¬ node.Readable → ∃ e, decode z frame = .error e) := by
  obtain ⟨payload, hpayload, h⟩ := except_bind_ok.mp h
  cases h
  obtain ⟨flags, data, hframe, hinflate⟩ := framed_inflates hz compress payload
  have hread := readsIff_node hpayload (Nat.le_refl _)
  rw [hframe, decode, hinflate]
  simp only [bind, Except.bind]
  constructor
  · intro hreadable
    obtain ⟨node', hreads, hsame⟩ := hread.reads hreadable
    have hreads' := hreads []
    rw [List.append_nil] at hreads'
    rw [hreads']
    exact ⟨node', rfl, hsame⟩
  · intro hnot
    obtain ⟨e, he⟩ := hread.refuses hnot []
    rw [List.append_nil] at he
    rw [he]
    exact ⟨e, rfl⟩

/-- A frame is read back as a tree of the same shape exactly where every string stands in
a position whose reader takes the form it was written in. -/
theorem encoded_readable_iff {z : Zlib} (hz : ∀ data, z.decompress (z.compress data) = .ok data)
    {node : OutNode} {compress : Bool} {frame : Bytes}
    (h : encodeOut z node compress = .ok frame) :
    (∃ node', decode z frame = .ok node' ∧ SameShape node node') ↔ node.Readable := by
  obtain ⟨hreads, hrefuses⟩ := decode_iff hz h
  constructor
  · rintro ⟨node', hnode', -⟩
    by_contra hnot
    obtain ⟨e, he⟩ := hrefuses hnot
    rw [he] at hnode'
    cases hnode'
  · intro hreadable
    obtain ⟨node', hdecode, hsame⟩ := hreads hreadable
    exact ⟨node', hdecode, OutNode.ReadAs.sameShape hsame⟩

def demoOut : OutNode :=
  .mk "message" ⟨[("to", .str "0:7@lid"), ("t", .int 26), ("id", .bytes [51, 69])], by decide⟩
    (.nodes [.mk "enc" ⟨[("v", .bool true)], by decide⟩ (.str "hello, you")])

theorem demoOut_readable : demoOut.Readable := by
  have hspells : ∀ s : String, '@' ∉ s.toList → SpellsText s := fun _ hat _ => hat
  have hjid : ∀ jid, parseJid "0:7@lid" = .ok jid → jid.Readable := by
    intro jid hparse
    have hdemo : parseJid "0:7@lid" =
        .ok { user := "0", server := "lid", device := 7 } := by decide +kernel
    cases hdemo.symm.trans hparse
    exact ⟨hspells _ (by decide), fun hzero => by cases hzero⟩
  have hutf8 : (utf8Decode [51, 69]).isOk = true := by decide +kernel
  have htext : SpellsBytes "hello, you" :=
    ⟨by decide, isToken_eq_false.mpr ⟨by decide +kernel, by decide +kernel⟩⟩
  refine ⟨hspells _ (by decide), ?_, ⟨hspells _ (by decide), ?_, htext⟩, trivial⟩
  · simp only [List.forall_mem_cons]
    exact ⟨⟨hspells _ (by decide), .inr hjid⟩, ⟨hspells _ (by decide), trivial⟩,
      ⟨hspells _ (by decide), hutf8⟩, by simp⟩
  · simp only [List.forall_mem_cons]
    exact ⟨⟨hspells _ (by decide), trivial⟩, by simp⟩

theorem encoded_readable_iff_message : ∃ frame node',
    encodeOut ⟨id, .ok⟩ demoOut false = .ok frame ∧ decode ⟨id, .ok⟩ frame = .ok node' ∧
      SameShape demoOut node' := by
  have hencoded : (encodeOut ⟨id, .ok⟩ demoOut false).isOk = true := by decide +kernel
  cases hframe : encodeOut ⟨id, .ok⟩ demoOut false with
  | error e =>
    rw [hframe] at hencoded
    cases hencoded
  | ok frame =>
    obtain ⟨node', hdecode, hsame⟩ :=
      (encoded_readable_iff (fun _ => rfl) hframe).mpr demoOut_readable
    exact ⟨frame, node', rfl, hdecode, hsame⟩

def demoTwoAts : OutNode := .mk "iq" ⟨[("id", .str "0@1@2")], by decide⟩ .none

/-- A JID is written in the place of the server of another. -/
theorem two_ats_unreadable : ¬ ∀ (node : OutNode) (frame : Bytes),
    encodeOut ⟨id, .ok⟩ node false = .ok frame →
      ∃ node', decode ⟨id, .ok⟩ frame = .ok node' ∧ SameShape node node' := by
  intro h
  have hencode : encodeOut ⟨id, .ok⟩ demoTwoAts false =
      .ok [0, 248, 3, 25, 8, 250, 45, 250, 85, 69] := by
    decide +kernel
  obtain ⟨node', hdecode, -⟩ := h _ _ hencode
  have herror : (decode ⟨id, .ok⟩
      [0, 248, 3, 25, 8, 250, 45, 250, 85, 69]).isOk = false := by
    decide +kernel
  rw [hdecode] at herror
  cases herror

end Frames

end Binary

end PyWhats
