import PyWhats.Codec

/-! What the decoder spends: every node and attribute of the tree it returns was paid for in
bytes, and nothing after the last byte taken has a say in the tree. -/

namespace PyWhats

open Reader (Consumes AgreesTo Reads)

mutual

def Node.nodeCount : Node → Nat
  | .mk _ _ content => 1 + content.nodeCount

def NodeContent.nodeCount : NodeContent Node → Nat
  | .nodes children => nodeCounts children
  | .bytes _ | .none => 0

def nodeCounts : List Node → Nat
  | [] => 0
  | node :: rest => node.nodeCount + nodeCounts rest

end

mutual

def Node.attrCount : Node → Nat
  | .mk _ attrs content => attrs.length + content.attrCount

def NodeContent.attrCount : NodeContent Node → Nat
  | .nodes children => attrCounts children
  | .bytes _ | .none => 0

def attrCounts : List Node → Nat
  | [] => 0
  | node :: rest => node.attrCount + attrCounts rest

end

/-- The least number of bytes that a tree takes. -/
def Node.price (node : Node) : Nat := 3 * node.nodeCount + 2 * node.attrCount

def NodeContent.price (content : NodeContent Node) : Nat :=
  3 * content.nodeCount + 2 * content.attrCount

theorem Node.price_mk (tag : String) (attrs : List (String × AttrValue))
    (content : NodeContent Node) :
    (Node.mk tag attrs content).price = 3 + 2 * attrs.length + content.price := by
  simp only [Node.price, Node.nodeCount, Node.attrCount, NodeContent.price]
  omega

theorem NodeContent.price_nodes (children : List Node) :
    (NodeContent.nodes children).price = (children.map Node.price).sum := by
  simp only [NodeContent.price, NodeContent.nodeCount, NodeContent.attrCount]
  induction children with
  | nil => rfl
  | cons node rest ih =>
    simp only [nodeCounts, attrCounts, List.map_cons, List.sum_cons, ← ih, Node.price]
    omega

namespace Binary

section Consumes

variable {α : Type}

theorem consumes_fail {cost : α → Nat} (e : PyError) : Consumes cost (fail e : ByteReader α) := by
  intro ts a rest h
  cases h

theorem consumes_u8 : Consumes (fun _ => 1) u8 := Consumes.next _

theorem consumes_read (n : Nat) : Consumes (fun _ => 0) (read n) :=
  (Consumes.take _ n).mono fun _ => Nat.zero_le n

/-- A list that is not empty has its size in at least one byte. -/
theorem consumes_listSize (tag : UInt8) :
    Consumes (fun count => if count = 0 then 0 else 1) (readListSize tag) := by
  rw [readListSize]
  split
  · exact Consumes.pure rfl
  · split
    · refine consumes_u8.map fun b => ?_
      split <;> omega
    · split
      · refine (consumes_u8.bind fun hi => ?_)
        refine (consumes_u8.map fun lo => ?_)
        split <;> omega
      · exact consumes_fail _

theorem consumes_free {p : ByteReader α} {cost : α → Nat} (h : Consumes cost p) :
    Consumes (fun _ => 0) p := h.mono fun _ => Nat.zero_le _

theorem consumes_packed (alphabet : List Char) : Consumes (fun _ => 0) (readPacked alphabet) :=
  consumes_u8.bind fun _ => (consumes_free (consumes_u8.times _)).map fun _ => Nat.zero_le _

theorem consumes_bytePayload (tag : UInt8) : Consumes (fun _ => 0) (readBytePayload tag) := by
  rw [readBytePayload]
  split
  · exact consumes_u8.bind fun n => consumes_free (consumes_read n.toNat)
  · split
    · exact consumes_u8.bind fun _ => consumes_u8.bind fun _ => consumes_u8.bind fun _ =>
        consumes_free (consumes_read _)
    · split
      · exact (consumes_read 4).bind fun _ => consumes_free (consumes_read _)
      · split
        · exact (consumes_packed nibbleAlphabet).map fun _ => Nat.le_refl 0
        · split
          · exact (consumes_packed hexAlphabet).map fun _ => Nat.le_refl 0
          · exact consumes_fail _

theorem consumes_token {x : Except PyError α} :
    Consumes (fun _ => 0) (StateT.lift x : ByteReader α) := Consumes.lift fun _ _ => rfl

theorem consumes_stringOrBytes (tag : UInt8) : Consumes (fun _ => 0) (readStringOrBytes tag) := by
  rw [readStringOrBytes]
  split
  · exact Consumes.pure rfl
  · split
    · exact consumes_token.map fun _ => Nat.le_refl 0
    · split
      · exact consumes_u8.bind fun _ => consumes_token.map fun _ => Nat.zero_le _
      · exact (consumes_bytePayload tag).map fun _ => Nat.le_refl 0

theorem consumes_text (tag : UInt8) : Consumes (fun _ => 0) (readText tag) :=
  (consumes_stringOrBytes tag).bind fun _ => consumes_token

theorem consumes_string : Consumes (fun _ => 1) readString :=
  consumes_u8.bind fun tag => consumes_text tag

theorem consumes_jidUser (peek : UInt8) : Consumes (fun _ => 0) (readJidUser peek) := by
  rw [readJidUser]
  split
  · exact Consumes.pure rfl
  · exact consumes_text peek

theorem consumes_jidPair : Consumes (fun _ => 0) readJidPair :=
  consumes_u8.bind fun peek => (consumes_jidUser peek).bind fun _ =>
    consumes_string.map fun _ => Nat.zero_le _

theorem consumes_adJid : Consumes (fun _ => 0) readAdJid :=
  consumes_u8.bind fun _ => consumes_u8.bind fun _ => consumes_string.map fun _ => Nat.zero_le _

theorem consumes_attrValue : Consumes (fun _ => 1) readAttrValue := by
  refine consumes_u8.bind fun tag => ?_
  split
  · exact consumes_jidPair.map fun _ => Nat.le_refl 0
  · split
    · exact consumes_adJid.map fun _ => Nat.le_refl 0
    · exact (consumes_text tag).map fun _ => Nat.le_refl 0

theorem consumes_attr : Consumes (fun _ => 2) readAttr :=
  consumes_string.bind fun _ => consumes_attrValue.map fun _ => Nat.le_refl 1

theorem consumes_attrs (n : Nat) : Consumes (fun as => 2 * as.length) (readAttr.times n) :=
  (consumes_attr.times n).mono fun as => by
    rw [List.map_const', List.sum_replicate_nat, Nat.mul_comm]

theorem consumes_content {readNode : ByteReader Node} (h : Consumes Node.price readNode) :
    Consumes NodeContent.price (readContentWith readNode) := by
  refine consumes_u8.bind fun tag => ?_
  split
  · refine (consumes_listSize tag).bind fun n => (h.times n).map fun children => ?_
    rw [NodeContent.price_nodes]
    omega
  · exact (consumes_bytePayload tag).map fun _ => Nat.zero_le _

theorem consumes_optionalContent {readNode : ByteReader Node} (h : Consumes Node.price readNode)
    (hasContent : Bool) : Consumes NodeContent.price (readOptionalContent readNode hasContent) := by
  cases hasContent with
  | false => exact Consumes.pure rfl
  | true => exact consumes_content h

theorem foldl_setAttr_length (read attrs : List (String × AttrValue)) :
    (read.foldl setAttr attrs).length ≤ attrs.length + read.length := by
  induction read generalizing attrs with
  | nil => exact Nat.le_refl _
  | cons attr read ih =>
    have hset : (setAttr attrs attr).length ≤ attrs.length + 1 := by
      rw [setAttr]
      split
      · rw [List.length_map]
        omega
      · rw [List.length_append, List.length_singleton]
    have hrest := ih (setAttr attrs attr)
    rw [List.foldl_cons, List.length_cons]
    omega

/-- The body of `_read_node`, with the function that it calls for its children. -/
def nodeBody (readNode : ByteReader Node) : ByteReader Node := do
  let listTag ← u8
  let count ← readListSize listTag
  if count = 0 then fail (.valueError "empty list where a node was expected")
  else
    let tag ← readString
    let attrs ← readAttr.times ((count - 1) / 2)
    let content ← readOptionalContent readNode ((count - 1) % 2 = 1)
    return .mk tag (attrs.foldl setAttr []) content

theorem readNode_succ (fuel : Nat) : readNode (fuel + 1) = nodeBody (readNode fuel) := by
  rw [readNode, nodeBody]

theorem consumes_nodeBody {readNode : ByteReader Node} (h : Consumes Node.price readNode) :
    Consumes Node.price (nodeBody readNode) := by
  refine consumes_u8.bind fun listTag => (consumes_listSize listTag).bind fun count => ?_
  by_cases hcount : count = 0
  · simp only [if_pos hcount]
    exact consumes_fail _
  · simp only [if_neg hcount]
    refine consumes_string.bind fun tag => (consumes_attrs _).bind fun read => ?_
    refine (consumes_optionalContent h _).map fun content => ?_
    have hlength := foldl_setAttr_length read []
    rw [List.length_nil] at hlength
    rw [Node.price_mk]
    omega

theorem consumes_node (fuel : Nat) : Consumes Node.price (readNode fuel) := by
  induction fuel with
  | zero => exact consumes_fail _
  | succ fuel ih => exact consumes_nodeBody ih

end Consumes

section Fuel

theorem agreesTo_content {n : Nat} {p q : ByteReader Node} (h : AgreesTo n p q)
    (hp : Consumes Node.price p) : AgreesTo n (readContentWith p) (readContentWith q) := by
  refine (AgreesTo.refl n u8).bind consumes_u8 fun tag => ?_
  split
  · refine (AgreesTo.refl n _).bind (consumes_listSize tag) fun k => ?_
    exact (h.times hp k).bind (hp.times k) fun _ => AgreesTo.refl n _
  · exact AgreesTo.refl n _

theorem agreesTo_optionalContent {n : Nat} {p q : ByteReader Node} (h : AgreesTo n p q)
    (hp : Consumes Node.price p) (hasContent : Bool) :
    AgreesTo n (readOptionalContent p hasContent) (readOptionalContent q hasContent) := by
  cases hasContent with
  | false => exact AgreesTo.refl n _
  | true => exact agreesTo_content h hp

theorem agreesTo_nodeBody {n : Nat} {p q : ByteReader Node} (h : AgreesTo n p q)
    (hp : Consumes Node.price p) : AgreesTo (n + 1) (nodeBody p) (nodeBody q) := by
  refine (AgreesTo.refl (n + 1) u8).bind_taking consumes_u8 fun listTag => ?_
  refine (AgreesTo.refl n _).bind (consumes_listSize listTag) fun count => ?_
  split
  · exact AgreesTo.refl n _
  · refine (AgreesTo.refl n readString).bind consumes_string fun tag => ?_
    refine (AgreesTo.refl n _).bind (consumes_attrs _) fun read => ?_
    exact (agreesTo_optionalContent h hp _).bind (consumes_optionalContent hp _) fun content =>
      AgreesTo.refl n _

theorem readNode_nil (fuel : Nat) :
    readNode fuel [] = .error (.valueError "unexpected end of buffer") := by
  cases fuel with
  | zero => rfl
  | succ fuel =>
    rw [readNode_succ]
    rfl

/-- More fuel than there are bytes changes nothing, also where the reading fails. -/
theorem readNode_fuel {n fuel fuel' : Nat} (h : n ≤ fuel) (h' : n ≤ fuel') :
    AgreesTo n (readNode fuel) (readNode fuel') := by
  induction n generalizing fuel fuel' with
  | zero =>
    intro ts hts
    have hnil : ts = [] := List.length_eq_zero_iff.mp (Nat.le_zero.mp hts)
    subst hnil
    rw [readNode_nil, readNode_nil]
  | succ n ih =>
    obtain ⟨fuel, rfl⟩ := Nat.exists_eq_add_of_le' (Nat.le_trans (Nat.le_add_left 1 n) h)
    obtain ⟨fuel', rfl⟩ := Nat.exists_eq_add_of_le' (Nat.le_trans (Nat.le_add_left 1 n) h')
    exact agreesTo_nodeBody (ih (by omega) (by omega)) (consumes_node fuel)

/-- `_read_node` on all that is left. -/
def nodeReader : ByteReader Node := fun payload => readNode payload.length payload

/-- The recursion of the source, which has no fuel. -/
theorem nodeReader_eq : nodeReader = nodeBody nodeReader := by
  funext payload
  have hagree : AgreesTo payload.length (readNode payload.length) nodeReader :=
    fun ts hts => readNode_fuel hts (Nat.le_refl _) ts (Nat.le_refl _)
  calc nodeReader payload
      = readNode (payload.length + 1) payload :=
        readNode_fuel (Nat.le_refl _) (Nat.le_succ _) payload (Nat.le_refl _)
    _ = nodeBody (readNode payload.length) payload := by rw [readNode_succ]
    _ = nodeBody nodeReader payload :=
        agreesTo_nodeBody hagree (consumes_node _) payload (Nat.le_succ _)

theorem nodeReader_fuel {payload : Bytes} {fuel : Nat} (h : payload.length ≤ fuel) :
    nodeReader payload = readNode fuel payload :=
  readNode_fuel (Nat.le_refl _) h payload (Nat.le_refl _)

theorem consumes_nodeReader : Consumes Node.price nodeReader := by
  intro payload node rest h
  obtain ⟨taken, hpayload, hprice, -⟩ := consumes_node payload.length payload node rest h
  refine ⟨taken, hpayload, hprice, fun more => ?_⟩
  -- Fuel for both texts.
  have hfuel : payload.length ≤ payload.length + (taken ++ more).length := Nat.le_add_right _ _
  have hfuel' : (taken ++ more).length ≤ payload.length + (taken ++ more).length :=
    Nat.le_add_left _ _
  rw [nodeReader_fuel hfuel] at h
  obtain ⟨taken', hpayload', -, hreads⟩ := consumes_node _ payload node rest h
  have hsame : taken' = taken := List.append_cancel_right (hpayload'.symm.trans hpayload)
  rw [hsame] at hreads
  rw [nodeReader_fuel hfuel']
  exact hreads more

end Fuel

section Decode

theorem decode_cons (z : Zlib) (flags : UInt8) (data : Bytes) :
    decode z (flags :: data) =
      (inflate z flags data).bind fun payload => (nodeReader payload).map Prod.fst := rfl

/-- A decoded tree was paid for by the front of the payload, and only that front has a say. -/
theorem decode_bounded (z : Zlib) : nodeReader = nodeBody nodeReader ∧
    (∀ flags data, decode z (flags :: data) =
      (inflate z flags data).bind fun payload => (nodeReader payload).map Prod.fst) ∧
    ∀ frame node, decode z frame = .ok node →
      ∃ flags data consumed rest, frame = flags :: data ∧
        inflate z flags data = .ok (consumed ++ rest) ∧
        3 * node.nodeCount + 2 * node.attrCount ≤ consumed.length ∧
        ∀ z' flags' data' rest', inflate z' flags' data' = .ok (consumed ++ rest') →
          decode z' (flags' :: data') = .ok node := by
  refine ⟨nodeReader_eq, decode_cons z, ?_⟩
  intro frame node h
  cases frame with
  | nil => cases h
  | cons flags data =>
    rw [decode_cons] at h
    cases hinflate : inflate z flags data with
    | error e =>
      rw [hinflate] at h
      cases h
    | ok payload =>
      rw [hinflate] at h
      cases hread : nodeReader payload with
      | error e =>
        simp only [Except.bind, hread, Except.map] at h
        cases h
      | ok r =>
        simp only [Except.bind, hread, Except.map, Except.ok.injEq] at h
        obtain ⟨consumed, hpayload, hprice, hreads⟩ := consumes_nodeReader payload r.1 r.2 hread
        subst h
        refine ⟨flags, data, consumed, r.2, rfl, by rw [hinflate, hpayload], hprice, ?_⟩
        intro z' flags' data' rest' hinflate'
        rw [decode_cons, hinflate']
        simp only [Except.bind, hreads rest', Except.map]

/-- A frame with a byte after its stanza. -/
theorem decode_bounded_trailing : ∃ node consumed rest,
    decode ⟨id, .ok⟩ [0, 248, 3, 0, 0, 0, 77] = .ok node ∧
      [248, 3, 0, 0, 0, 77] = consumed ++ rest ∧
      3 * node.nodeCount + 2 * node.attrCount ≤ consumed.length ∧
      ∀ rest', decode ⟨id, .ok⟩ (0 :: (consumed ++ rest')) = .ok node := by
  have hok : (decode ⟨id, .ok⟩ [0, 248, 3, 0, 0, 0, 77]).isOk = true := by decide +kernel
  cases hdecode : decode ⟨id, .ok⟩ [0, 248, 3, 0, 0, 0, 77] with
  | error e =>
    rw [hdecode] at hok
    cases hok
  | ok node =>
    obtain ⟨flags, data, consumed, rest, hframe, hinflate, hprice, hsame⟩ :=
      (decode_bounded ⟨id, .ok⟩).2.2 _ _ hdecode
    cases hframe
    exact ⟨node, consumed, rest, rfl, Except.ok.inj hinflate, hprice, fun rest' =>
      hsame _ 0 _ rest' rfl⟩

end Decode

end Binary

end PyWhats
