import PyWhats.Readback

/-! Which trees the encoder can write. A string of digits or of hexadecimal digits is
packed whatever its length, and the length byte of the packed form has no room for more
than 254 symbols; the other forms hold all that fits into four bytes of length. -/

namespace PyWhats

section Supported

/-- A string as the encoder is given it outside of JIDs in text form. -/
structure OutText (s : String) : Prop where
  at_free : '@' ∉ s.toList
  length_lt : (Binary.utf8Encode s).length < 4294967296

def OutValue.Supported : OutValue → Prop
  | .str s => OutText s
  | .int _ | .bool _ => True
  | .jid j => OutText j.user ∧ OutText j.server
  | .bytes b => b.length < 4294967296

mutual

def OutNode.Supported : OutNode → Prop
  | .mk tag attrs content => OutText tag ∧ attrs.items.length ≤ 32766 ∧
    (∀ a ∈ attrs.items, OutText a.1 ∧ a.2.Supported) ∧ content.Supported

def OutContent.Supported : OutContent OutNode → Prop
  | .none => True
  | .bytes b => b.length < 4294967296
  | .str s => OutText s
  | .nodes children => children.length ≤ 65535 ∧ SupportedNodes children

def SupportedNodes : List OutNode → Prop
  | [] => True
  | node :: rest => node.Supported ∧ SupportedNodes rest

end

/-- The strings that are written for a value. -/
def OutValue.written : OutValue → List String
  | .str s => [s]
  | .int n => [toString n]
  | .bool b => [if b then "true" else "false"]
  | .jid j => if j.device ≠ 0 then [j.user] else [j.user, j.server]
  | .bytes _ => []

def writtenAttrs (attrs : List (String × OutValue)) : List String :=
  attrs.flatMap fun a => a.1 :: a.2.written

theorem writtenAttrs_cons (k : String) (v : OutValue) (rest : List (String × OutValue)) :
    writtenAttrs ((k, v) :: rest) = k :: (v.written ++ writtenAttrs rest) := rfl

mutual

def OutNode.written : OutNode → List String
  | .mk tag attrs content => tag :: (writtenAttrs attrs.items ++ content.written)

def OutContent.written : OutContent OutNode → List String
  | .none => []
  | .bytes _ => []
  | .str s => [s]
  | .nodes children => writtenNodes children

def writtenNodes : List OutNode → List String
  | [] => []
  | node :: rest => node.written ++ writtenNodes rest

end

end Supported

namespace Binary

section Strings

/-- A string that is packed. -/
def Packable (s : String) : Prop :=
  isToken s = false ∧
    (allIn s.toList nibbleAlphabet = true ∨ allIn s.toList hexAlphabet = true)

/-- Too long for the length byte of the packed form. -/
def Overpacked (s : String) : Prop := Packable s ∧ 254 < s.toList.length

/-- Too long for the four bytes of length of a byte string. -/
def Oversized (s : String) : Prop :=
  isToken s = false ∧ ¬ Packable s ∧ 4294967296 ≤ (utf8Encode s).length

def Succeeds {α : Type} (x : Except PyError α) : Prop := ∃ a, x = .ok a

theorem succeeds_bind {α β : Type} {x : Except PyError α} {f : α → Except PyError β} {q : Prop}
    (h : ∀ a, Succeeds (f a) ↔ q) : Succeeds (x >>= f) ↔ Succeeds x ∧ q := by
  constructor
  · rintro ⟨b, hb⟩
    obtain ⟨a, ha, hf⟩ := except_bind_ok.mp hb
    exact ⟨⟨a, ha⟩, (h a).mp ⟨b, hf⟩⟩
  · rintro ⟨⟨a, ha⟩, hq⟩
    obtain ⟨b, hf⟩ := (h a).mpr hq
    exact ⟨b, except_bind_ok.mpr ⟨a, ha, hf⟩⟩

theorem succeeds_map {α β : Type} {x : Except PyError α} {g : α → β} :
    Succeeds (x >>= fun a => pure (g a)) ↔ Succeeds x := by
  have hdone : ∀ a, Succeeds (pure (g a) : Except PyError β) ↔ True :=
    fun a => iff_of_true ⟨g a, rfl⟩ trivial
  rw [succeeds_bind hdone, and_true]

theorem writePacked_succeeds {s : List Char} {tag : UInt8} {alphabet : List Char} :
    Succeeds (writePacked s tag alphabet) ↔ ¬ 254 < s.length := by
  rw [writePacked]
  by_cases hlong : (s.length + 1) / 2 ≥ 128
  · rw [if_pos hlong]
    refine iff_of_false ?_ (by omega)
    rintro ⟨bs, h⟩
    cases h
  · rw [if_neg hlong]
    exact iff_of_true ⟨_, rfl⟩ (by omega)

theorem writeBytes_succeeds {data : Bytes} :
    Succeeds (writeBytes data) ↔ data.length < 4294967296 := by
  rw [writeBytes]
  split
  · exact iff_of_true ⟨_, rfl⟩ (by omega)
  split
  · exact iff_of_true ⟨_, rfl⟩ (by omega)
  split
  · rename_i _ _ h
    exact iff_of_true ⟨_, rfl⟩ h
  · rename_i _ _ h
    refine iff_of_false ?_ h
    rintro ⟨bs, hbs⟩
    cases hbs

theorem writeListHeader_succeeds {count : Nat} :
    Succeeds (writeListHeader count) ↔ count < 65536 := by
  rw [writeListHeader]
  split
  · exact iff_of_true ⟨_, rfl⟩ (by omega)
  split
  · exact iff_of_true ⟨_, rfl⟩ (by omega)
  split
  · rename_i _ _ h
    exact iff_of_true ⟨_, rfl⟩ h
  · rename_i _ _ h
    refine iff_of_false ?_ h
    rintro ⟨bs, hbs⟩
    cases hbs

theorem writeString_empty : writeString "" = .ok [binary8, 0] := by
  rw [writeString, writeStringFuel.eq_def, if_pos rfl]

theorem not_packable_empty : ¬ Packable "" := by
  rintro ⟨-, h | h⟩ <;> cases h

theorem writeString_token_succeeds {s : String} (h : isToken s = true) :
    Succeeds (writeString s) := by
  cases hsingle : lookupSingle s with
  | some i => exact ⟨_, writeString_single hsingle⟩
  | none =>
    cases hdouble : lookupDouble s with
    | some p => exact ⟨_, writeString_double hsingle hdouble⟩
    | none =>
      rw [isToken_eq_false.mpr ⟨hsingle, hdouble⟩] at h
      cases h

/-- Of a string without `@` that is no token: packed where the alphabet allows it. -/
theorem writeString_untokened {s : String} (hne : s ≠ "") (htoken : isToken s = false)
    (hat : '@' ∉ s.toList) :
    writeString s =
      if allIn s.toList nibbleAlphabet then writePacked s.toList nibble8 nibbleAlphabet
      else if allIn s.toList hexAlphabet then writePacked s.toList hex8 hexAlphabet
      else writeBytes (utf8Encode s) := by
  obtain ⟨hsingle, hdouble⟩ := isToken_eq_false.mp htoken
  rw [writeString, writeStringFuel.eq_def, if_neg hne, hsingle, hdouble]
  simp only [if_neg hat]

theorem writeString_packable {s : String} (hs : Packable s) (hat : '@' ∉ s.toList) :
    Succeeds (writeString s) ↔ ¬ 254 < s.toList.length := by
  have hne : s ≠ "" := by
    rintro rfl
    exact not_packable_empty hs
  rw [writeString_untokened hne hs.1 hat]
  by_cases hnibble : allIn s.toList nibbleAlphabet = true
  · rw [if_pos hnibble]
    exact writePacked_succeeds
  · rw [if_neg hnibble, if_pos (hs.2.resolve_left hnibble)]
    exact writePacked_succeeds

theorem writeString_succeeds {s : String} (hat : '@' ∉ s.toList) :
    Succeeds (writeString s) ↔ ¬ Overpacked s ∧ ¬ Oversized s := by
  by_cases htoken : isToken s = true
  · have hnot : ¬ isToken s = false := by rw [htoken]; decide
    exact iff_of_true (writeString_token_succeeds htoken)
      ⟨fun h => hnot h.1.1, fun h => hnot h.1⟩
  rw [Bool.not_eq_true] at htoken
  by_cases hs : Packable s
  · rw [writeString_packable hs hat]
    exact ⟨fun h => ⟨fun ho => h ho.2, fun ho => ho.2.1 hs⟩, fun h hlong => h.1 ⟨hs, hlong⟩⟩
  by_cases hne : s = ""
  · subst hne
    refine iff_of_true ⟨_, writeString_empty⟩ ⟨fun h => hs h.1, fun h => ?_⟩
    exact absurd h.2.2 (by decide)
  · have hnibble : ¬ allIn s.toList nibbleAlphabet = true := fun h => hs ⟨htoken, .inl h⟩
    have hhex : ¬ allIn s.toList hexAlphabet = true := fun h => hs ⟨htoken, .inr h⟩
    rw [writeString_untokened hne htoken hat, if_neg hnibble, if_neg hhex, writeBytes_succeeds]
    refine ⟨fun h => ⟨fun ho => hs ho.1, fun ho => ?_⟩, fun h => ?_⟩
    · have := ho.2.2
      omega
    · by_contra hlong
      exact h.2 ⟨htoken, hs, by omega⟩

theorem writeString_text {s : String} (hs : OutText s) :
    Succeeds (writeString s) ↔ ¬ Overpacked s := by
  rw [writeString_succeeds hs.at_free, and_iff_left_iff_imp]
  intro _ hover
  have hlong := hover.2.2
  have hlt := hs.length_lt
  omega

theorem digit_nibble {c : Char} (h : c.isDigit = true) :
    c ∈ nibbleAlphabet ∧ c ≠ Char.ofNat 0 := by
  have hall : ∀ k < 10, Char.ofNat (48 + k) ∈ nibbleAlphabet ∧
      Char.ofNat (48 + k) ≠ Char.ofNat 0 := by decide
  obtain ⟨h0, h9⟩ : 48 ≤ c.toNat ∧ c.toNat ≤ 57 := Char.isDigit_iff_toNat.mp h
  have hc : Char.ofNat (48 + (c.toNat - 48)) = c := by
    rw [Nat.add_sub_cancel' h0, Char.ofNat_toNat]
  rw [← hc]
  exact hall _ (by omega)

theorem int_ne_nil (n : Int) : (toString n).toList ≠ [] := by
  have hne : ∀ m : Nat, m.repr.toList ≠ [] := by
    intro m hm
    exact Nat.repr_ne_empty (String.toList_eq_nil_iff.mp hm)
  rw [Int.toString_eq_repr, Int.repr_eq_if]
  split
  · exact hne _
  · rw [String.toList_append]
    exact List.append_ne_nil_of_right_ne_nil _ (hne _)

/-- The decimal text of a number is packed. -/
theorem allIn_int (n : Int) : allIn (toString n).toList nibbleAlphabet = true := by
  simp only [allIn, Bool.and_eq_true, List.all_eq_true, decide_eq_true_eq]
  refine ⟨?_, fun c hc => ?_⟩
  · rw [List.isEmpty_eq_false_iff.mpr (int_ne_nil n)]
    rfl
  · rcases mem_int hc with rfl | hdigit
    · decide
    · exact digit_nibble hdigit

theorem writeString_int (n : Int) :
    Succeeds (writeString (toString n)) ↔ ¬ Overpacked (toString n) := by
  rw [writeString_succeeds (int_spelled n), and_iff_left_iff_imp]
  exact fun _ hover => hover.2.1 ⟨hover.1, .inl (allIn_int n)⟩

theorem not_overpacked_short {s : String} (h : s.toList.length ≤ 254) : ¬ Overpacked s :=
  fun hover => absurd hover.2 (by omega)

theorem not_overpacked_empty : ¬ Overpacked "" := fun h => not_packable_empty h.1

end Strings

section Trees

theorem writeJidUser_succeeds {user : String} (hs : OutText user) :
    Succeeds (writeJidUser writeString user) ↔ ¬ Overpacked user := by
  by_cases hempty : user = ""
  · rw [writeJidUser, if_neg (not_not.mpr hempty), hempty]
    exact iff_of_true ⟨_, rfl⟩ not_overpacked_empty
  · rw [writeJidUser, if_pos hempty]
    exact writeString_text hs

theorem writeJid_succeeds {jid : JID} (huser : OutText jid.user) (hserver : OutText jid.server) :
    Succeeds (writeJid jid) ↔ ∀ s ∈ (OutValue.jid jid).written, ¬ Overpacked s := by
  rw [writeJid, writeJidWith, OutValue.written]
  by_cases hdevice : jid.device ≠ 0
  · rw [if_pos hdevice, if_pos hdevice, succeeds_map, writeString_text huser,
      List.forall_mem_singleton]
  · rw [if_neg hdevice, if_neg hdevice, succeeds_bind fun _ => succeeds_map,
      writeJidUser_succeeds huser, writeString_text hserver, List.forall_mem_cons,
      List.forall_mem_singleton]

theorem writeOutValue_succeeds {v : OutValue} (hv : v.Supported) :
    Succeeds (writeOutValue v) ↔ ∀ s ∈ v.written, ¬ Overpacked s := by
  cases v with
  | str s =>
    rw [writeOutValue, OutValue.written, writeString_text hv, List.forall_mem_singleton]
  | int n => rw [writeOutValue, OutValue.written, writeString_int, List.forall_mem_singleton]
  | bool b =>
    have hfree : '@' ∉ (if b then "true" else "false").toList := by cases b <;> decide
    have hshort : (utf8Encode (if b then "true" else "false")).length < 4294967296 := by
      cases b <;> decide
    rw [writeOutValue, OutValue.written, writeString_text ⟨hfree, hshort⟩,
      List.forall_mem_singleton]
  | jid j => exact writeJid_succeeds hv.1 hv.2
  | bytes b => exact iff_of_true (writeBytes_succeeds.mpr hv) fun s hs => by cases hs

theorem writeOutAttrs_succeeds {attrs : List (String × OutValue)}
    (h : ∀ a ∈ attrs, OutText a.1 ∧ a.2.Supported) :
    Succeeds (writeOutAttrs attrs) ↔ ∀ s ∈ writtenAttrs attrs, ¬ Overpacked s := by
  induction attrs with
  | nil => exact iff_of_true ⟨_, rfl⟩ fun s hs => by cases hs
  | cons a rest ih =>
    obtain ⟨k, v⟩ := a
    obtain ⟨hkey, hvalue⟩ := h _ List.mem_cons_self
    have hrest := ih fun a ha => h a (List.mem_cons_of_mem _ ha)
    rw [writeOutAttrs, succeeds_bind fun _ => succeeds_bind fun _ => succeeds_map,
      writeString_text hkey, writeOutValue_succeeds hvalue, hrest, writtenAttrs_cons,
      List.forall_mem_cons, List.forall_mem_append]

mutual

theorem writeOutNode_succeeds {node : OutNode} (h : node.Supported) :
    Succeeds (writeOutNode node) ↔ ∀ s ∈ node.written, ¬ Overpacked s := by
  obtain ⟨tag, attrs, content⟩ := node
  obtain ⟨htag, hcount, hattrs, hcontent⟩ := h
  have hheader : Succeeds
      (writeListHeader (1 + 2 * attrs.items.length + outContentItems content)) := by
    have hle := outContentItems_le content
    exact writeListHeader_succeeds.mpr (by omega)
  rw [writeOutNode,
    succeeds_bind fun _ => succeeds_bind fun _ => succeeds_bind fun _ => succeeds_map,
    writeString_text htag, writeOutAttrs_succeeds hattrs, writeOutContent_succeeds hcontent,
    OutNode.written, List.forall_mem_cons, List.forall_mem_append, and_iff_right hheader]

theorem writeOutContent_succeeds {content : OutContent OutNode} (h : content.Supported) :
    Succeeds (writeOutContent content) ↔ ∀ s ∈ content.written, ¬ Overpacked s := by
  cases content with
  | none => exact iff_of_true ⟨_, rfl⟩ fun s hs => by cases hs
  | bytes b => exact iff_of_true (writeBytes_succeeds.mpr h) fun s hs => by cases hs
  | str s =>
    rw [writeOutContent, OutContent.written, writeString_text h, List.forall_mem_singleton]
  | nodes children =>
    have hheader := writeListHeader_succeeds.mpr (Nat.lt_succ_of_le h.1)
    rw [writeOutContent, succeeds_bind fun _ => succeeds_map, and_iff_right hheader,
      writeOutNodes_succeeds h.2, OutContent.written]

theorem writeOutNodes_succeeds {nodes : List OutNode} (h : SupportedNodes nodes) :
    Succeeds (writeOutNodes nodes) ↔ ∀ s ∈ writtenNodes nodes, ¬ Overpacked s := by
  cases nodes with
  | nil => exact iff_of_true ⟨_, rfl⟩ fun s hs => by cases hs
  | cons node rest =>
    rw [writeOutNodes, succeeds_bind fun _ => succeeds_map, writeOutNode_succeeds h.1,
      writeOutNodes_succeeds h.2, writtenNodes, List.forall_mem_append]

end

/-- A supported tree has a frame exactly where no string that is packed is longer than the
length byte of the packed form can say. -/
theorem encode_succeeds_iff (z : Zlib) {node : OutNode} (h : node.Supported) (compress : Bool) :
    (∃ frame, encodeOut z node compress = .ok frame) ↔ ∀ s ∈ node.written, ¬ Overpacked s := by
  have hpayload := writeOutNode_succeeds h
  rw [← hpayload]
  exact succeeds_map

theorem demoAddressed_keys : ["to", "t", "id"].Nodup := by decide

def demoAddressed : OutNode :=
  .mk "message" ⟨[("to", .jid { user := "49123", server := "lid", device := 7 }),
      ("t", .int 26), ("id", .str "3EB0")], demoAddressed_keys⟩
    (.nodes [.mk "enc" ⟨[("v", .bool true)], List.nodup_singleton _⟩ (.bytes [1, 2, 3])])

theorem demoAddressed_supported : demoAddressed.Supported := by
  have htext : ∀ s : String, '@' ∉ s.toList ∧ (utf8Encode s).length < 4294967296 → OutText s :=
    fun s hs => ⟨hs.1, hs.2⟩
  have hbody : ([1, 2, 3] : Bytes).length < 4294967296 := by decide
  refine ⟨htext _ (by decide), by decide, ?_, by decide, ⟨htext _ (by decide), by decide, ?_,
    hbody⟩, trivial⟩
  · simp only [List.forall_mem_cons]
    exact ⟨⟨htext _ (by decide), htext _ (by decide), htext _ (by decide)⟩,
      ⟨htext _ (by decide), trivial⟩, ⟨htext _ (by decide), htext _ (by decide)⟩, by simp⟩
  · simp only [List.forall_mem_cons]
    exact ⟨⟨htext _ (by decide), trivial⟩, by simp⟩

theorem encode_succeeds_message : ∃ frame, encodeOut ⟨id, .ok⟩ demoAddressed true = .ok frame := by
  refine (encode_succeeds_iff _ demoAddressed_supported true).mpr fun s hs => ?_
  have hshort : ∀ s ∈ demoAddressed.written, s.toList.length ≤ 254 := by decide
  exact not_overpacked_short (hshort s hs)

def demoLongId : String := String.ofList (List.replicate 255 '0')

theorem demoLongId_toList : demoLongId.toList = List.replicate 255 '0' := String.toList_ofList

theorem demoLongId_overpacked : Overpacked demoLongId := by
  refine ⟨⟨by decide +kernel, .inl ?_⟩, ?_⟩
  · rw [demoLongId_toList]
    decide +kernel
  · rw [demoLongId_toList, List.length_replicate]
    decide

def demoDigits : OutNode := .mk "iq" ⟨[("id", .str demoLongId)], by decide⟩ .none

theorem demoDigits_supported : demoDigits.Supported := by
  have hid : OutText demoLongId := by
    refine ⟨?_, by decide +kernel⟩
    rw [demoLongId_toList]
    decide
  refine ⟨⟨by decide, by decide⟩, by decide, ?_, trivial⟩
  simp only [List.forall_mem_cons]
  exact ⟨⟨⟨by decide, by decide⟩, hid⟩, by simp⟩

/-- 255 letters can be written, 255 digits cannot. -/
theorem digits_refused : ¬ ∀ (node : OutNode), node.Supported →
    ∃ frame, encodeOut ⟨id, .ok⟩ node false = .ok frame := by
  intro h
  obtain ⟨frame, hframe⟩ := h demoDigits demoDigits_supported
  obtain ⟨payload, hpayload, -⟩ := except_bind_ok.mp hframe
  refine (writeOutNode_succeeds demoDigits_supported).mp ⟨payload, hpayload⟩ _ ?_
    demoLongId_overpacked
  exact List.mem_cons_of_mem _ (List.mem_cons_of_mem _ List.mem_cons_self)

end Trees

end Binary

end PyWhats
