-- Whether a link leads to the session that it was made for. The id stands at
-- the end of the link, and it is found there unless the start of the link has
-- a query of its own. Then all that follows belongs to the last pair of that
-- query, and the link leads nowhere, or to a session that the start names.
import TurtleScript.Sharing.Invitation
import TurtleScript.Sharing.Relay

namespace TurtleScript

/-! ## Session ids -/

/-- A hexadecimal digit or a dash. -/
def isIdChar (c : Char) : Bool :=
  Decimal.isDigit c || (decide ('a' ≤ c) && decide (c ≤ 'f')) ||
    (decide ('A' ≤ c) && decide (c ≤ 'F')) || c = '-'

/-- What a relay may give out as an id. -/
structure IsSessionId (id : String) : Prop where
  nonempty : id.toList ≠ []
  chars : id.toList.all isIdChar = true

theorem IsSessionId.isIdChar_of_mem {id : String} (h : IsSessionId id) {c : Char} (hc : c ∈ id.toList) :
    isIdChar c = true :=
  List.all_eq_true.mp h.chars c hc

theorem not_isBlank_of_isIdChar {c : Char} (h : isIdChar c = true) : isBlank c = false := by
  have hrange : 45 ≤ c.toNat ∧ c.toNat ≤ 102 := by
    have hends : ('0'.toNat = 48 ∧ '9'.toNat = 57) ∧ ('a'.toNat = 97 ∧ 'f'.toNat = 102) ∧
        'A'.toNat = 65 ∧ 'F'.toNat = 70 := by decide
    simp only [isIdChar, Decimal.isDigit, Bool.or_eq_true, Bool.and_eq_true, decide_eq_true_eq,
      Char.le_def, UInt32.le_iff_toNat_le, Char.toNat_val] at h
    rcases h with ((h | h) | h) | rfl
    · omega
    · omega
    · omega
    · decide
  rw [← Bool.not_eq_true]
  unfold isBlank
  rw [List.any_eq_true]
  rintro ⟨⟨first, last⟩, hmem, hin⟩
  have houtside : ∀ range ∈ blankRanges, range.2 < 45 ∨ 102 < range.1 := by decide
  have := houtside _ hmem
  simp only [Bool.and_eq_true, decide_eq_true_eq] at hin
  omega

/-- No mark that a link is cut at can be part of an id. -/
theorem IsSessionId.notMem {id : String} (h : IsSessionId id) {c : Char} (hc : isIdChar c = false) :
    c ∉ id.toList := by
  intro hmem
  rw [h.isIdChar_of_mem hmem] at hc
  cases hc

/-! ## The end of a link -/

/-- The pair that tells the id of a session. -/
def watchingPair (id : String) : List Char := watchingKey ++ '=' :: id.toList

theorem toList_shareUrl (config : Config) (id : String) :
    (config.shareUrl id).toList = config.shareBase.toList ++ '?' :: watchingPair id := by
  unfold Config.shareUrl watchingPair
  rw [String.toList_append, String.toList_append, List.append_assoc]
  rfl

theorem notMem_watchingPair {id : String} (h : IsSessionId id) {c : Char} (hc : isIdChar c = false)
    (hkey : c ∉ watchingKey) (heq : c ≠ '=') : c ∉ watchingPair id := by
  unfold watchingPair
  rw [List.mem_append, List.mem_cons, not_or, not_or]
  exact ⟨hkey, heq, h.notMem hc⟩

theorem watchingValue?_watchingPair {id : String} (h : IsSessionId id) :
    watchingValue? [watchingPair id] = some id.toList := by
  have hkey : '=' ∉ watchingKey := by decide
  simp only [watchingValue?, watchingPair, splitFirst_append_cons hkey]
  exact if_pos ⟨trivial, h.nonempty⟩

/-- Only white space at the start of a link is trimmed. -/
theorem trimBlanks_link (base : List Char) {id : String} (h : IsSessionId id) :
    trimBlanks (base ++ '?' :: watchingPair id) =
      base.dropWhile isBlank ++ '?' :: watchingPair id := by
  have hstart : (base ++ '?' :: watchingPair id).dropWhile isBlank =
      base.dropWhile isBlank ++ '?' :: watchingPair id := by
    have hmark : ('?' :: watchingPair id).dropWhile isBlank = '?' :: watchingPair id := rfl
    rw [List.dropWhile_append, hmark]
    split
    · next hempty => rw [List.isEmpty_iff.mp hempty, List.nil_append]
    · rfl
  obtain ⟨front, last, hlast⟩ := (List.eq_nil_or_concat id.toList).resolve_left h.nonempty
  have hend : isBlank last = false := not_isBlank_of_isIdChar (h.isIdChar_of_mem (by simp [hlast]))
  unfold trimBlanks
  rw [hstart, watchingPair, hlast]
  simp [hend]

/-! ## The start of a link -/

/-- A start without a query is passed over. -/
theorem watchingIdChars?_of_notMem {base : List Char} (hbase : '?' ∉ base) {id : String}
    (h : IsSessionId id) : watchingIdChars? (base ++ '?' :: watchingPair id) = some id.toList := by
  have hstart : '?' ∉ base.dropWhile isBlank :=
    fun hmem => hbase ((List.dropWhile_sublist _).subset hmem)
  have hfragment : '#' ∉ watchingPair id :=
    notMem_watchingPair h (by decide) (by decide) (by decide)
  have hpairs : '&' ∉ watchingPair id := notMem_watchingPair h (by decide) (by decide) (by decide)
  unfold watchingIdChars?
  simp only [trimBlanks_link base h, splitFirst_append_cons hstart]
  rw [beforeFragment, splitFirst_eq_none_iff.mpr hfragment]
  exact (congrArg watchingValue? (splitAll_of_notMem hpairs)).trans (watchingValue?_watchingPair h)

theorem watchingValue?_append (pairs : List (List Char)) (pair : List Char) :
    watchingValue? (pairs ++ [pair]) = (watchingValue? pairs).or (watchingValue? [pair]) := by
  induction pairs with
  | nil => rfl
  | cons first pairs ih =>
    rw [List.cons_append]
    unfold watchingValue?
    split
    · split
      · rfl
      · exact ih
    · exact ih

theorem eq_watchingKey_append {pair value : List Char} (h : watchingValue? [pair] = some value) :
    pair = watchingKey ++ '=' :: value := by
  unfold watchingValue? at h
  split at h
  · next key _ hsplit =>
    split at h
    · next hkey =>
      rw [splitFirst_eq_some hsplit, hkey.1, Option.some.inj h]
    · cases h
  · cases h

theorem question_mem_dropWhile {base : List Char} (h : '?' ∈ base) :
    '?' ∈ base.dropWhile isBlank := by
  rw [← List.takeWhile_append_dropWhile (p := isBlank) (l := base), List.mem_append] at h
  refine h.resolve_left fun hmem => ?_
  have hblank : isBlank '?' = true := List.all_eq_true.mp List.all_takeWhile _ hmem
  exact absurd hblank (by decide)

/-- A start with a query leads to one session at most, whatever comes after it. -/
theorem exists_named_of_mem {base : List Char} (hbase : '?' ∈ base) :
    ∃ named : Option (List Char), ∀ id, IsSessionId id →
      watchingIdChars? (base ++ '?' :: watchingPair id) = some id.toList → named = some id.toList := by
  have hstart : splitFirst '?' (base.dropWhile isBlank) ≠ none :=
    fun hnone => splitFirst_eq_none_iff.mp hnone (question_mem_dropWhile hbase)
  obtain ⟨⟨before, query⟩, hsplit⟩ := Option.ne_none_iff_exists'.mp hstart
  have hquery : ∀ id, IsSessionId id → watchingIdChars? (base ++ '?' :: watchingPair id) =
      watchingValue? (splitAll '&' (beforeFragment (query ++ '?' :: watchingPair id))) := by
    intro id h
    unfold watchingIdChars?
    simp only [trimBlanks_link base h, splitFirst_append hsplit]
  cases hcut : splitFirst '#' query with
  | some cut =>
    -- The fragment swallows the id.
    obtain ⟨kept, fragment⟩ := cut
    refine ⟨watchingValue? (splitAll '&' kept), fun id h hid => ?_⟩
    rw [hquery id h, beforeFragment, splitFirst_append hcut] at hid
    exact hid
  | none =>
    obtain ⟨pairs, last, hpairs⟩ := exists_splitAll_append '&' query
    refine ⟨watchingValue? pairs, fun id h hid => ?_⟩
    have hfragment : '#' ∉ query ++ '?' :: watchingPair id := by
      rw [List.mem_append, List.mem_cons, not_or, not_or]
      exact ⟨splitFirst_eq_none_iff.mp hcut, by decide,
        notMem_watchingPair h (by decide) (by decide) (by decide)⟩
    have hlater : '&' ∉ '?' :: watchingPair id := by
      rw [List.mem_cons, not_or]
      exact ⟨by decide, notMem_watchingPair h (by decide) (by decide) (by decide)⟩
    rw [hquery id h, beforeFragment, splitFirst_eq_none_iff.mpr hfragment] at hid
    simp only [hpairs _ hlater, watchingValue?_append, Option.or_eq_some_iff] at hid
    rcases hid with hid | ⟨-, hid⟩
    · exact hid
    · -- The last pair has a question mark in it, so its value is no id.
      have hmark : '?' ∈ watchingKey ++ '=' :: id.toList := by
        rw [← eq_watchingKey_append hid]
        simp
      exact absurd hmark (notMem_watchingPair h (by decide) (by decide) (by decide))

/-! ## The law of links -/

theorem watchingId?_eq_some_iff {link id : String} :
    watchingId? link = some id ↔ watchingIdChars? link.toList = some id.toList := by
  unfold watchingId?
  rw [Option.map_eq_some_iff]
  constructor
  · rintro ⟨cs, hcs, rfl⟩
    rw [hcs, String.toList_ofList]
  · exact fun h => ⟨_, h, String.ofList_toList⟩

/-- The links of a client lead to the sessions that they are made for exactly if what they start with
has no question mark. Otherwise there is at most one id whose link leads to its session. -/
theorem links_lead_to_their_sessions_unless_the_base_has_a_query (config : Config) :
    ((∀ id, IsSessionId id → watchingId? (config.shareUrl id) = some id) ↔
      '?' ∉ config.shareBase.toList) ∧
    ('?' ∈ config.shareBase.toList → ∀ id id', IsSessionId id → IsSessionId id' →
      watchingId? (config.shareUrl id) = some id → watchingId? (config.shareUrl id') = some id' →
        id = id') := by
  simp only [watchingId?_eq_some_iff, toList_shareUrl]
  have hone : '?' ∈ config.shareBase.toList → ∀ id id', IsSessionId id → IsSessionId id' →
      watchingIdChars? (config.shareBase.toList ++ '?' :: watchingPair id) = some id.toList →
      watchingIdChars? (config.shareBase.toList ++ '?' :: watchingPair id') = some id'.toList →
        id = id' := by
    intro hbase id id' h h' hid hid'
    obtain ⟨named, hnamed⟩ := exists_named_of_mem hbase
    have hsame := (hnamed id h hid).symm.trans (hnamed id' h' hid')
    exact String.toList_inj.mp (Option.some.inj hsame)
  refine ⟨⟨fun hall hbase => ?_, fun hbase id h => watchingIdChars?_of_notMem hbase h⟩, hone⟩
  have hzero : IsSessionId "0" := ⟨by decide, by decide⟩
  have hone' : IsSessionId "1" := ⟨by decide, by decide⟩
  exact absurd (hone hbase _ _ hzero hone' (hall _ hzero) (hall _ hone')) (by decide)

/-- Links that start with white space and have a fragment in the middle. -/
def oddStart : Config := ⟨Config.defaultRelay, " http://host/my page#top "⟩

/-- Links whose start names a session. -/
def namingStart : Config := ⟨Config.defaultRelay, "http://host/?watching=ab-12&lang=en"⟩

theorem naming_start_leads_to_one_session :
    '?' ∉ oddStart.shareBase.toList ∧ IsSessionId "ab-12" ∧
      watchingId? (oddStart.shareUrl "ab-12") = some "ab-12" ∧
      '?' ∈ namingStart.shareBase.toList ∧
      watchingId? (namingStart.shareUrl "ab-12") = some "ab-12" ∧
      ∀ id, IsSessionId id → id ≠ "ab-12" → watchingId? (namingStart.shareUrl id) ≠ some id := by
  have hodd : '?' ∉ oddStart.shareBase.toList := by decide
  have hid : IsSessionId "ab-12" := ⟨by decide, by decide⟩
  have hnaming : '?' ∈ namingStart.shareBase.toList := by decide
  have hnamed : watchingId? (namingStart.shareUrl "ab-12") = some "ab-12" := by decide +kernel
  have hall := (links_lead_to_their_sessions_unless_the_base_has_a_query oddStart).1.mpr hodd
  have hone := (links_lead_to_their_sessions_unless_the_base_has_a_query namingStart).2 hnaming
  exact ⟨hodd, hid, hall _ hid, hnaming, hnamed,
    fun id h hne hlink => hne (hone id "ab-12" h hid hlink hnamed)⟩

end TurtleScript
