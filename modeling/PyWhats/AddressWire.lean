import PyWhats.Writable

/-! What becomes of an address in a frame. The form with a device has one byte for the
device and one of four values for the server; both are written whatever the address is. -/

namespace PyWhats

section Paths

/-- The node at the end of a path of child numbers. -/
def descend {ν : Type} (children : ν → List ν) : List Nat → ν → Option ν
  | [], node => some node
  | i :: path, node => (children node)[i]?.bind (descend children path)

theorem descend_related {ν μ : Type} {R : ν → μ → Prop} {children : ν → List ν}
    {children' : μ → List μ}
    (hstep : ∀ a b, R a b → List.Forall₂ R (children a) (children' b)) {path : List Nat} {a a' : ν}
    {b : μ} (h : R a b) (ha : descend children path a = some a') :
    ∃ b', descend children' path b = some b' ∧ R a' b' := by
  induction path generalizing a b with
  | nil =>
    cases ha
    exact ⟨b, rfl, h⟩
  | cons i path ih =>
    obtain ⟨c, hc, ha⟩ := Option.bind_eq_some_iff.mp ha
    obtain ⟨hi, rfl⟩ := List.getElem?_eq_some_iff.mp hc
    have hall := hstep a b h
    have hi' : i < (children' b).length := hall.length_eq ▸ hi
    obtain ⟨b', hb', hrel⟩ := ih (hall.get hi hi') ha
    refine ⟨b', ?_, hrel⟩
    rw [descend, List.getElem?_eq_getElem hi']
    exact hb'

theorem descend_invariant {ν : Type} {P : ν → Prop} {children : ν → List ν}
    (hstep : ∀ a, P a → ∀ c ∈ children a, P c) {path : List Nat} {a a' : ν} (h : P a)
    (ha : descend children path a = some a') : P a' := by
  induction path generalizing a with
  | nil =>
    cases ha
    exact h
  | cons i path ih =>
    obtain ⟨c, hc, ha⟩ := Option.bind_eq_some_iff.mp ha
    exact ih (hstep a h c (List.mem_of_getElem? hc)) ha

def OutNode.children : OutNode → List OutNode
  | .mk _ _ (.nodes l) => l
  | _ => []

def OutNode.getAttr : OutNode → String → Option OutValue
  | .mk _ attrs _, name => (attrs.items.find? fun a => a.1 = name).map Prod.snd

/-- The attribute of the node at the end of the path. -/
def OutNode.attrAt (node : OutNode) (path : List Nat) (name : String) : Option OutValue :=
  (descend OutNode.children path node).bind fun n => n.getAttr name

def Node.attrAt (node : Node) (path : List Nat) (name : String) : Option AttrValue :=
  (descend Node.children path node).bind fun n => n.getAttr name

theorem ReadAsNodes.forall₂ {outs : List OutNode} {nodes : List Node}
    (h : ReadAsNodes outs nodes) : List.Forall₂ OutNode.ReadAs outs nodes := by
  induction outs generalizing nodes with
  | nil =>
    cases nodes with
    | nil => exact List.Forall₂.nil
    | cons node rest => exact h.elim
  | cons out outs ih =>
    cases nodes with
    | nil => exact h.elim
    | cons node rest => exact List.Forall₂.cons h.1 (ih h.2)

theorem OutNode.ReadAs.children {out : OutNode} {node : Node} (h : OutNode.ReadAs out node) :
    List.Forall₂ OutNode.ReadAs out.children node.children := by
  obtain ⟨tag, attrs, content⟩ := out
  obtain ⟨tag', attrs', content'⟩ := node
  obtain ⟨-, -, hcontent⟩ := h
  cases content <;> cases content'
  case nodes.nodes => exact ReadAsNodes.forall₂ hcontent
  all_goals first | exact List.Forall₂.nil | exact hcontent.elim

theorem ReadAsAttrs.find {attrs : List (String × OutValue)} {attrs' : List (String × AttrValue)}
    {name : String} {v : OutValue} (h : ReadAsAttrs attrs attrs')
    (hv : (attrs.find? fun a => a.1 = name).map Prod.snd = some v) :
    ∃ v', (attrs'.find? fun a => a.1 = name).map Prod.snd = some v' ∧ v.ReadAs v' := by
  induction h with
  | nil => cases hv
  | @cons a a' rest rest' ha _ ih =>
    by_cases hname : a.1 = name
    · rw [List.find?_cons_of_pos (by simpa using hname)] at hv
      rw [List.find?_cons_of_pos (by simpa [ha.1] using hname)]
      cases hv
      exact ⟨a'.2, rfl, ha.2⟩
    · rw [List.find?_cons_of_neg (by simpa using hname)] at hv
      rw [List.find?_cons_of_neg (by simpa [ha.1] using hname)]
      exact ih hv

theorem OutNode.ReadAs.attrAt {out : OutNode} {node : Node} {path : List Nat} {name : String}
    {v : OutValue} (h : OutNode.ReadAs out node) (hv : out.attrAt path name = some v) :
    ∃ v', node.attrAt path name = some v' ∧ v.ReadAs v' := by
  obtain ⟨out', hout, hv⟩ := Option.bind_eq_some_iff.mp hv
  obtain ⟨node', hnode, hread⟩ := descend_related (fun _ _ => OutNode.ReadAs.children) h hout
  rw [Node.attrAt, hnode]
  obtain ⟨tag, attrs, content⟩ := out'
  obtain ⟨tag', attrs', content'⟩ := node'
  exact hread.2.1.find hv

end Paths

namespace Binary

section Written

theorem writeOutNode_children {node : OutNode} (h : Succeeds (writeOutNode node)) :
    ∀ child ∈ node.children, Succeeds (writeOutNode child) := by
  have hnodes : ∀ nodes : List OutNode, Succeeds (writeOutNodes nodes) →
      ∀ child ∈ nodes, Succeeds (writeOutNode child) := by
    intro nodes hnodes
    induction nodes with
    | nil =>
      intro child hchild
      cases hchild
    | cons node rest ih =>
      rw [writeOutNodes, succeeds_bind fun _ => succeeds_map] at hnodes
      exact List.forall_mem_cons.mpr ⟨hnodes.1, ih hnodes.2⟩
  obtain ⟨tag, attrs, content⟩ := node
  rw [writeOutNode, succeeds_bind fun _ => succeeds_bind fun _ => succeeds_bind fun _ =>
    succeeds_map] at h
  obtain ⟨-, -, -, hcontent⟩ := h
  cases content with
  | nodes children =>
    rw [writeOutContent, succeeds_bind fun _ => succeeds_map] at hcontent
    exact hnodes children hcontent.2
  | _ =>
    intro child hchild
    cases hchild

theorem writeOutAttrs_value {attrs : List (String × OutValue)} {name : String} {v : OutValue}
    (h : Succeeds (writeOutAttrs attrs))
    (hv : (attrs.find? fun a => a.1 = name).map Prod.snd = some v) :
    Succeeds (writeOutValue v) := by
  obtain ⟨a, ha, rfl⟩ := Option.map_eq_some_iff.mp hv
  have hmem := List.mem_of_find?_eq_some ha
  clear ha hv
  induction attrs with
  | nil => cases hmem
  | cons b rest ih =>
    obtain ⟨k, w⟩ := b
    rw [writeOutAttrs, succeeds_bind fun _ => succeeds_bind fun _ => succeeds_map] at h
    rcases List.mem_cons.mp hmem with rfl | hmem
    · exact h.2.1
    · exact ih h.2.2 hmem

theorem writeOutNode_attrAt {node : OutNode} {path : List Nat} {name : String} {v : OutValue}
    (h : Succeeds (writeOutNode node)) (hv : node.attrAt path name = some v) :
    Succeeds (writeOutValue v) := by
  obtain ⟨node', hnode, hv⟩ := Option.bind_eq_some_iff.mp hv
  have hwritten := descend_invariant (fun _ => writeOutNode_children) h hnode
  obtain ⟨tag, attrs, content⟩ := node'
  rw [writeOutNode, succeeds_bind fun _ => succeeds_bind fun _ => succeeds_bind fun _ =>
    succeeds_map] at hwritten
  exact writeOutAttrs_value hwritten.2.2.1 hv

theorem writeJid_user {jid : JID} (hdevice : jid.device ≠ 0) :
    Succeeds (writeJid jid) ↔ Succeeds (writeString jid.user) := by
  rw [writeJid, writeJidWith, if_pos hdevice]
  exact succeeds_map

end Written

section Kept

/-- Wherever the address stands in a tree, the frame of the tree brings it back. -/
def Kept (jid : JID) : Prop :=
  ∀ z : Zlib, (∀ data, z.decompress (z.compress data) = .ok data) →
    ∀ node : OutNode, node.Readable → ∀ path name, node.attrAt path name = some (.jid jid) →
      ∀ compress frame, encodeOut z node compress = .ok frame →
        ∃ node', decode z frame = .ok node' ∧ node'.attrAt path name = some (.jid jid)

theorem decoded_wired {z : Zlib} (hz : ∀ data, z.decompress (z.compress data) = .ok data)
    {node : OutNode} (hnode : node.Readable) {path : List Nat} {name : String} {jid : JID}
    (hattr : node.attrAt path name = some (.jid jid)) {compress : Bool} {frame : Bytes}
    (h : encodeOut z node compress = .ok frame) :
    ∃ node', decode z frame = .ok node' ∧ node'.attrAt path name = some (.jid jid.wired) := by
  obtain ⟨node', hdecode, hread⟩ := (decode_iff hz h).1 hnode
  obtain ⟨v, hv, hwired⟩ := hread.attrAt hattr
  refine ⟨node', hdecode, ?_⟩
  rw [hv, hwired]

def addressed (jid : JID) : OutNode := .mk "iq" ⟨[("to", .jid jid)], by simp⟩ .none

theorem addressed_readable {jid : JID} (hjid : jid.Spelled) : (addressed jid).Readable := by
  have hspells : ∀ s : String, '@' ∉ s.toList → SpellsText s := fun _ hat _ => hat
  refine ⟨hspells _ (by decide), ?_, trivial⟩
  simp only [List.forall_mem_singleton]
  exact ⟨hspells _ (by decide), hspells _ hjid.1, fun _ => hspells _ hjid.2⟩

theorem addressed_encoded {jid : JID} (hjid : Succeeds (writeJid jid)) (z : Zlib)
    (compress : Bool) : ∃ frame, encodeOut z (addressed jid) compress = .ok frame := by
  have htext : ∀ s : String, OutText s → s.toList.length ≤ 254 → Succeeds (writeString s) :=
    fun s hs hshort => (writeString_text hs).mpr (not_overpacked_short hshort)
  refine succeeds_map.mpr ?_
  rw [addressed, writeOutNode, succeeds_bind fun _ => succeeds_bind fun _ => succeeds_bind fun _ =>
    succeeds_map, writeOutAttrs, succeeds_bind fun _ => succeeds_bind fun _ => succeeds_map]
  exact ⟨⟨_, rfl⟩, htext _ ⟨by decide, by decide⟩ (by decide),
    ⟨htext _ ⟨by decide, by decide⟩ (by decide), hjid, ⟨[], rfl⟩⟩, ⟨[], rfl⟩⟩

theorem Kept.wired {jid : JID} (h : Kept jid) (hjid : jid.Spelled)
    (hwritten : Succeeds (writeJid jid)) : jid.wired = jid := by
  obtain ⟨frame, hframe⟩ := addressed_encoded hwritten ⟨id, .ok⟩ false
  have hattr : (addressed jid).attrAt [] "to" = some (.jid jid) := by
    simp [OutNode.attrAt, descend, addressed, OutNode.getAttr]
  have hz : ∀ data, (⟨id, .ok⟩ : Zlib).decompress ((⟨id, .ok⟩ : Zlib).compress data) = .ok data :=
    fun _ => rfl
  have hreadable := addressed_readable hjid
  obtain ⟨node, hdecode, hkept⟩ := h _ hz _ hreadable [] "to" hattr false frame hframe
  obtain ⟨node', hdecode', hwired⟩ := decoded_wired hz hreadable hattr hframe
  cases hdecode.symm.trans hdecode'
  have hsame := Option.some.inj (hkept.symm.trans hwired)
  injection hsame with hsame
  exact hsame.symm

/-- An address with a device is kept where the device fits in its byte and the server is one
of the four, or where its user cannot be written at all. -/
theorem kept_iff {jid : JID} (hdevice : 0 ≤ jid.device) (hjid : jid.Spelled) :
    Kept jid ↔ jid.device = 0 ∨
      (jid.device < 256 ∧ jid.server ∈ ["s.whatsapp.net", "lid", "hosted", "hosted.lid"]) ∨
      Overpacked jid.user ∨ Oversized jid.user := by
  have hwired := wired_jid_iff hdevice
  constructor
  · intro hkept
    by_cases hzero : jid.device = 0
    · exact .inl hzero
    by_cases huser : Succeeds (writeString jid.user)
    · have hsame := hkept.wired hjid ((writeJid_user hzero).mpr huser)
      exact (hwired.mp hsame).imp_right .inl
    · rw [writeString_succeeds hjid.1, ← not_or, not_not] at huser
      exact .inr (.inr huser)
  · intro hcases z hz node hnode path name hattr compress frame hframe
    obtain ⟨node', hdecode, hattr'⟩ := decoded_wired hz hnode hattr hframe
    refine ⟨node', hdecode, ?_⟩
    suffices hsame : jid.wired = jid by rw [hattr', hsame]
    rw [hwired]
    rcases hcases with hzero | hfits | hunwritten
    · exact .inl hzero
    · exact .inr hfits
    · by_contra hlost
      have hzero : jid.device ≠ 0 := fun h => hlost (.inl h)
      have hpayload := succeeds_map.mp ⟨frame, hframe⟩
      have huser := (writeJid_user hzero).mp (writeOutNode_attrAt hpayload hattr)
      rw [writeString_succeeds hjid.1, ← not_or] at huser
      exact huser hunwritten

theorem kept_iff_lid : Kept { user := "49123", server := "lid", device := 7 } := by
  have hspelled : JID.Spelled { user := "49123", server := "lid", device := 7 } :=
    ⟨by decide, by decide⟩
  exact (kept_iff (by decide) hspelled).mpr (.inr (.inl (by decide)))

/-- Device 256 comes back as the phone itself. -/
theorem device_changed : ¬ ∀ jid : JID, 0 ≤ jid.device → jid.Spelled → Kept jid := by
  intro h
  have hspelled : JID.Spelled { user := "49123", device := 256 } := ⟨by decide, by decide⟩
  have huser : Succeeds (writeString "49123") :=
    (writeString_text ⟨by decide, by decide⟩).mpr (not_overpacked_short (by decide))
  have hwired := (h { user := "49123", device := 256 } (by decide) hspelled).wired hspelled
    ((writeJid_user (by decide)).mpr huser)
  exact absurd hwired (by decide)

end Kept

end Binary

end PyWhats
