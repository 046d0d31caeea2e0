import Mathlib.Data.List.TakeWhile
import PyWhats.Jid
import PyWhats.Wire

/-! The two parsers of an address in text form. That of the receiver takes the device from
behind the last `:` or else the last `.`; that of the sender from behind the first `.`, and
gives an address without a server the default one. -/

namespace PyWhats

open PyText (partition rsplit)

section Splits

variable {sep : Char} {a b s : List Char}

theorem partition_of_not_mem (h : sep ∉ s) : partition sep s = (s, []) := by
  have hall : ∀ c ∈ s, (decide (c ≠ sep)) = true := by
    intro c hc
    exact decide_eq_true fun heq => h (heq ▸ hc)
  rw [partition, List.takeWhile_eq_self_iff.mpr hall, List.dropWhile_eq_nil_iff.mpr hall,
    List.tail_nil]

theorem partition_append (h : sep ∉ a) : partition sep (a ++ sep :: b) = (a, b) := by
  have hall : ∀ c ∈ a, (decide (c ≠ sep)) = true := by
    intro c hc
    exact decide_eq_true fun heq => h (heq ▸ hc)
  rw [partition, List.takeWhile_append_of_pos hall, List.dropWhile_append_of_pos hall]
  simp

theorem rsplit_append (h : sep ∉ b) : rsplit sep (a ++ sep :: b) = (a, b) := by
  have hreverse : (a ++ sep :: b).reverse = b.reverse ++ sep :: a.reverse := by simp
  rw [rsplit, hreverse, partition_append (by simpa using h)]
  simp

theorem exists_first (h : sep ∈ s) : ∃ a b, s = a ++ sep :: b ∧ sep ∉ a :=
  List.eq_append_cons_of_mem h

theorem exists_last (h : sep ∈ s) : ∃ a b, s = a ++ sep :: b ∧ sep ∉ b := by
  obtain ⟨b, a, hs, hb⟩ := exists_first (List.mem_reverse.mpr h)
  refine ⟨a.reverse, b.reverse, ?_, by simpa using hb⟩
  rw [← List.reverse_inj, hs]
  simp

theorem isDigit_free {c : Char} (hc : PyText.charIsDigit c = false) (h : PyText.isDigit s = true) :
    c ∉ s := by
  intro hmem
  simp only [PyText.isDigit, Bool.and_eq_true, List.all_eq_true] at h
  rw [h.2 c hmem] at hc
  cases hc

end Splits

section Suffix

/-- The local part has one device suffix, if any, that both parsers read. -/
def OneSuffix (s : List Char) : Prop :=
  (':' ∈ s → PyText.isDigit (rsplit ':' s).2 = false) ∧
    ('.' ∉ s ∨ s.count '.' = 1 ∧ PyText.isDigit (partition '.' s).2 = true ∧
      (PyText.int? (partition '.' s).2).isSome = true)

/-- The user and the device of the sender's parser. -/
def senderSuffix (s : List Char) : Except PyError (List Char × Int) :=
  let (user, dev) := partition '.' s
  if PyText.isDigit dev then
    match PyText.int? dev with
    | some device => .ok (user, device)
    | none => .error (.valueError "invalid literal for int() with base 10")
  else .ok (user, 0)

theorem senderJidFromAttr_eq {s : String} (hne : s ≠ "") :
    senderJidFromAttr s = do
      let (user, device) ← senderSuffix (partition '@' s.toList).1
      return { user := String.ofList user
               server := if (partition '@' s.toList).2.isEmpty then "s.whatsapp.net"
                 else String.ofList (partition '@' s.toList).2
               device := device } := by
  rw [senderJidFromAttr, if_neg hne]
  simp only [senderSuffix]
  by_cases hdigit : PyText.isDigit (partition '.' (partition '@' s.toList).1).2 = true
  · rw [if_pos hdigit, if_pos hdigit]
    cases PyText.int? (partition '.' (partition '@' s.toList).1).2 <;> rfl
  · rw [if_neg hdigit, if_neg hdigit]
    rfl

theorem senderSuffix_user {s : List Char} {r : List Char × Int} (h : senderSuffix s = .ok r) :
    r.1 = (partition '.' s).1 := by
  simp only [senderSuffix] at h
  split at h
  · split at h
    · cases h
      rfl
    · cases h
  · cases h
    rfl

theorem senderSuffix_undotted {s : List Char} (h : '.' ∉ s) : senderSuffix s = .ok (s, 0) := by
  simp only [senderSuffix, partition_of_not_mem h]
  rfl

theorem splitDevice_digits {a b : List Char} {sep : Char} (hb : sep ∉ b)
    (hdigit : PyText.isDigit b = true) (seps : List Char) :
    splitDevice (a ++ sep :: b) (sep :: seps) =
      match PyText.int? b with
      | some device => .ok (a, device)
      | none => .error (.valueError "invalid literal for int() with base 10") := by
  rw [splitDevice, if_pos (List.mem_append_right a List.mem_cons_self), rsplit_append hb]
  exact if_pos hdigit

theorem splitDevice_skip {s : List Char} {sep : Char}
    (h : sep ∈ s → PyText.isDigit (rsplit sep s).2 = false) (seps : List Char) :
    splitDevice s (sep :: seps) = splitDevice s seps := by
  rw [splitDevice]
  by_cases hmem : sep ∈ s
  · simp only [if_pos hmem, h hmem, Bool.false_eq_true, if_false]
  · rw [if_neg hmem]

theorem splitDevice_digits_ok {a b : List Char} {sep : Char} (hb : sep ∉ b)
    (hdigit : PyText.isDigit b = true) {seps : List Char} {r : List Char × Int}
    (h : splitDevice (a ++ sep :: b) (sep :: seps) = .ok r) :
    r.1 = a ∧ (PyText.int? b).isSome = true := by
  rw [splitDevice_digits hb hdigit] at h
  split at h
  · rename_i device hint
    cases h
    rw [hint]
    exact ⟨rfl, rfl⟩
  · cases h

theorem partition_fst_free (sep : Char) (s : List Char) : sep ∉ (partition sep s).1 := by
  intro h
  have hne := List.mem_takeWhile_imp h
  simp at hne

/-- Digits behind the last `:` are the device for the receiver, and part of the user for
the sender. -/
theorem colon_disagrees {s : List Char} {r : List Char × Int} (hsender : senderSuffix s = .ok r)
    (hreceiver : splitDevice s [':', '.'] = .ok r) (hcolon : ':' ∈ s) :
    PyText.isDigit (rsplit ':' s).2 = false := by
  obtain ⟨a, b, rfl, hb⟩ := exists_last hcolon
  rw [rsplit_append hb]
  by_contra hdigit
  rw [Bool.not_eq_false] at hdigit
  have hdot : '.' ∉ b := isDigit_free (by decide) hdigit
  have huser := senderSuffix_user hsender
  rw [(splitDevice_digits_ok hb hdigit hreceiver).1] at huser
  have hfree : '.' ∉ a := huser ▸ partition_fst_free '.' (a ++ ':' :: b)
  have hall : '.' ∉ a ++ ':' :: b := by
    simp only [List.mem_append, List.mem_cons, not_or]
    exact ⟨hfree, by decide, hdot⟩
  rw [partition_of_not_mem hall] at huser
  have hlength := congrArg List.length huser
  simp at hlength

theorem suffixes_agree_iff (s : List Char) :
    (∃ r, senderSuffix s = .ok r ∧ splitDevice s [':', '.'] = .ok r) ↔ OneSuffix s := by
  constructor
  · rintro ⟨r, hsender, hreceiver⟩
    have hcolon := colon_disagrees hsender hreceiver
    refine ⟨hcolon, or_iff_not_imp_left.mpr fun hdot => ?_⟩
    rw [splitDevice_skip hcolon] at hreceiver
    have huser := senderSuffix_user hsender
    obtain ⟨a, b, rfl, hb⟩ := exists_last (not_not.mp hdot)
    by_cases hdigit : PyText.isDigit b = true
    · obtain ⟨ha, hint⟩ := splitDevice_digits_ok hb hdigit hreceiver
      have hfree : '.' ∉ a := by
        rw [← ha, huser]
        exact partition_fst_free '.' _
      rw [partition_append hfree]
      exact ⟨by simp [List.count_eq_zero_of_not_mem, hfree, hb], hdigit, hint⟩
    · have hskip : PyText.isDigit (rsplit '.' (a ++ '.' :: b)).2 = false := by
        rw [rsplit_append hb]
        simpa using hdigit
      rw [splitDevice_skip fun _ => hskip] at hreceiver
      cases hreceiver
      have hfree := partition_fst_free '.' (a ++ '.' :: b)
      rw [← huser] at hfree
      exact absurd (List.mem_append_right a List.mem_cons_self) hfree
  · rintro ⟨hcolon, hdot | ⟨hcount, hdigit, hint⟩⟩
    · refine ⟨(s, 0), senderSuffix_undotted hdot, ?_⟩
      rw [splitDevice_skip hcolon, splitDevice_skip fun hmem => absurd hmem hdot]
      rfl
    · obtain ⟨a, b, rfl, ha⟩ := exists_first (List.count_pos_iff.mp (hcount ▸ Nat.one_pos))
      have hb : '.' ∉ b := by
        rw [List.count_append, List.count_eq_zero_of_not_mem ha, List.count_cons_self] at hcount
        exact List.count_eq_zero.mp (by omega)
      rw [partition_append ha] at hdigit hint
      obtain ⟨device, hdevice⟩ := Option.isSome_iff_exists.mp hint
      refine ⟨(a, device), ?_, ?_⟩
      · simp only [senderSuffix, partition_append ha, if_pos hdigit, hdevice]
      · rw [splitDevice_skip hcolon, splitDevice_digits hb hdigit, hdevice]

end Suffix

section Agreement

theorem receiverJidFromAttr_eq {s : String} (hat : '@' ∈ s.toList) :
    receiverJidFromAttr (some (.str s)) = do
      let (user, device) ← splitDevice (partition '@' s.toList).1 [':', '.']
      return { user := String.ofList user
               server := String.ofList (partition '@' s.toList).2
               device := device } := by
  have hne : s ≠ "" := by
    rintro rfl
    simp at hat
  rw [receiverJidFromAttr, if_pos hne, parseJid, if_neg (not_not.mpr hat)]

/-- Without a server, the receiver has no user and the sender no server of its own. -/
theorem bare_disagrees {s : String} {jid : JID} (hne : s ≠ "") (hat : '@' ∉ s.toList)
    (hsender : senderJidFromAttr s = .ok jid) :
    receiverJidFromAttr (some (.str s)) ≠ .ok jid := by
  intro hreceiver
  rw [receiverJidFromAttr, if_pos hne, parseJid, if_pos hat] at hreceiver
  rw [senderJidFromAttr_eq hne, partition_of_not_mem hat] at hsender
  obtain ⟨r, hsuffix, hjid⟩ := except_bind_ok.mp hsender
  cases hreceiver
  injection hjid with hjid
  have huser : String.ofList r.1 = "" := congrArg JID.user hjid
  have hserver : "s.whatsapp.net" = s := congrArg JID.server hjid
  subst hserver
  have hs : (partition '.' "s.whatsapp.net".toList).1 = ['s'] := by decide
  rw [senderSuffix_user hsuffix, hs] at huser
  exact absurd huser (by decide)

/-- Both parsers return the same address where the text is empty, or has a server and a
local part whose device suffix they read alike. -/
theorem one_parse_iff (s : String) :
    (∃ jid, senderJidFromAttr s = .ok jid ∧ receiverJidFromAttr (some (.str s)) = .ok jid) ↔
      s = "" ∨ ('@' ∈ s.toList ∧ (partition '@' s.toList).2 ≠ [] ∧
        OneSuffix (partition '@' s.toList).1) := by
  by_cases hne : s = ""
  · subst hne
    exact iff_of_true ⟨{ user := "" }, rfl, rfl⟩ (.inl rfl)
  rw [or_iff_right hne]
  by_cases hat : '@' ∈ s.toList
  · rw [and_iff_right hat, ← suffixes_agree_iff, senderJidFromAttr_eq hne,
      receiverJidFromAttr_eq hat]
    constructor
    · rintro ⟨jid, hsender, hreceiver⟩
      obtain ⟨r, hr, hjid⟩ := except_bind_ok.mp hsender
      obtain ⟨r', hr', hjid'⟩ := except_bind_ok.mp hreceiver
      cases hjid'
      injection hjid with hjid
      have huser : r.1 = r'.1 := String.ofList_injective (congrArg JID.user hjid)
      have hdevice : r.2 = r'.2 := congrArg JID.device hjid
      have hserver := congrArg JID.server hjid
      refine ⟨fun hempty => ?_, r, hr, ?_⟩
      · simp [hempty] at hserver
      · rw [hr', Prod.ext huser hdevice]
    · rintro ⟨hserver, r, hr, hr'⟩
      refine ⟨_, except_bind_ok.mpr ⟨r, hr, rfl⟩, except_bind_ok.mpr ⟨r, hr', ?_⟩⟩
      rw [List.isEmpty_eq_false_iff.mpr hserver]
      rfl
  · refine iff_of_false ?_ fun h => hat h.1
    rintro ⟨jid, hsender, hreceiver⟩
    exact bare_disagrees hne hat hsender hreceiver

/-- The device behind a colon is part of the user for the sender. -/
theorem two_parses : ¬ ∀ s : String, ∃ jid, senderJidFromAttr s = .ok jid ∧
    receiverJidFromAttr (some (.str s)) = .ok jid := by
  intro h
  obtain ⟨jid, hsender, hreceiver⟩ := h "1:2@s.whatsapp.net"
  have hsender' : senderJidFromAttr "1:2@s.whatsapp.net" = .ok { user := "1:2" } := by
    decide +kernel
  have hreceiver' : receiverJidFromAttr (some (.str "1:2@s.whatsapp.net")) =
      .ok { user := "1", device := 2 } := by decide +kernel
  cases hsender'.symm.trans hsender
  exact absurd (hreceiver'.symm.trans hreceiver) (by decide)

end Agreement

end PyWhats
