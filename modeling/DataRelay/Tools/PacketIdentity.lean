import DataRelay.Tools.ContextEpoch
import DataRelay.Tools.PacketReaders
import DataRelay.Tools.WatchState

/-! The identity of a packet, from the text to the binding file and back.

    The lines of the identity are read back one by one, so the binding holds what was printed unless
    the values are too long together. The checks of a packet answer for every text but those with a
    number that `isdigit` takes and `int` does not. -/

namespace DataRelay.Tools.Context
open Lib
open Tools.Packet (Line splitlines splitlinesAux isLineBreak metaRe isKeyChar structural
  scanPacketMetadata scanPacketMetadata_get? firstValue_some isUpper)

/-! ### Lines -/

/-- A line without a line break in it. -/
def Unbroken (line : Line) : Prop := ∀ c ∈ line, isLineBreak c = false

/-- A line up to a newline is cut off as it is. -/
theorem splitlinesAux_line : ∀ (line : Line) (cur rest : List Char), Unbroken line →
    splitlinesAux cur (line ++ '\n' :: rest) = (cur.reverse ++ line) :: splitlinesAux [] rest
  | [], cur, rest, _ => by simp [splitlinesAux, isLineBreak]
  | c :: line, cur, rest, h => by
    obtain ⟨hc, hline⟩ := List.forall_mem_cons.mp h
    have hcr : c ≠ '\r' := by
      rintro rfl
      exact absurd hc (by decide)
    rw [List.cons_append, splitlinesAux, hc, if_neg (by simp), splitlinesAux_line line _ rest hline]
    · simp
    · rintro cs rfl
      exact absurd rfl hcr

theorem splitlines_lines : ∀ lines : List Line, (∀ line ∈ lines, Unbroken line) →
    splitlinesAux [] (lines.flatMap (· ++ ['\n'])) = lines
  | [], _ => rfl
  | line :: lines, h => by
    obtain ⟨hline, hlines⟩ := List.forall_mem_cons.mp h
    rw [List.flatMap_cons, List.append_assoc, List.singleton_append,
      splitlinesAux_line line [] _ hline, splitlines_lines lines hlines]
    rfl

theorem splitlinesAux_unbroken (cur cs : List Char) (hcur : Unbroken cur) :
    ∀ line ∈ splitlinesAux cur cs, Unbroken line := by
  have hreverse : ∀ {l : List Char}, Unbroken l → Unbroken l.reverse :=
    fun h c hc => h c (List.mem_reverse.mp hc)
  have hnil : Unbroken [] := fun _ hc => by cases hc
  induction cur, cs using Tools.Packet.splitlinesAux.induct with
  | case1 => simp [splitlinesAux]
  | case2 cur hne => simpa [splitlinesAux, hne] using hreverse hcur
  | case3 cur cs ih =>
    rw [splitlinesAux]
    exact List.forall_mem_cons.mpr ⟨hreverse hcur, ih hnil⟩
  | case4 cur c cs hcr hc ih =>
    rw [splitlinesAux, if_pos hc]
    · exact List.forall_mem_cons.mpr ⟨hreverse hcur, ih hnil⟩
    · exact hcr
  | case5 cur c cs hcr hc ih =>
    rw [splitlinesAux, if_neg hc]
    · exact ih (List.forall_mem_cons.mpr ⟨Bool.eq_false_iff.mpr hc, hcur⟩)
    · exact hcr

theorem intercalate_newline : ∀ lines : List Line, lines ≠ [] →
    List.intercalate ['\n'] lines ++ ['\n'] = lines.flatMap (· ++ ['\n'])
  | [], h => absurd rfl h
  | [line], _ => by simp [List.intercalate]
  | line :: next :: rest, _ => by
    have hrest := intercalate_newline (next :: rest) (by simp)
    rw [List.flatMap_cons, ← hrest]
    simp [List.intercalate]

theorem universalNewlines_eq_self (cs : List Char) (h : '\r' ∉ cs) : universalNewlines cs = cs := by
  induction cs using universalNewlines.induct with
  | case1 => rfl
  | case2 | case3 => simp at h
  | case4 c cs hcrlf hcr ih =>
    rw [universalNewlines, ih fun hmem => h (List.mem_cons_of_mem _ hmem)]
    · exact hcrlf
    · exact hcr

/-! ### Metadata -/

/-- A text that a line gives back as the value of a key. -/
structure Clean (value : String) : Prop where
  unbroken : Unbroken value.toList
  trimmed : strip value = value

theorem mem_strip {s : String} {c : Char} (h : c ∈ (strip s).toList) : c ∈ s.toList := by
  rw [strip, String.toList_ofList] at h
  have hdrop := (List.rdropWhile_prefix isSpace _).subset h
  exact (List.dropWhile_suffix isSpace).subset hdrop

theorem metaRe_value {line : Line} {key value : String} (h : metaRe line = some (key, value)) :
    ∃ text, value = strip (String.ofList text) ∧ text ⊆ line := by
  unfold metaRe at h
  dsimp only at h
  split at h
  · rename_i text hrest
    split at h
    · obtain ⟨-, rfl⟩ := Prod.mk.inj (Option.some.inj h)
      refine ⟨text, rfl, fun c hc => (List.dropWhile_suffix isKeyChar).subset ?_⟩
      rw [hrest]
      exact List.mem_cons_of_mem _ hc
    · cases h
  · cases h

theorem clean_of_metaRe {line : Line} {key value : String} (hline : Unbroken line)
    (h : metaRe line = some (key, value)) : Clean value := by
  obtain ⟨text, rfl, hsub⟩ := metaRe_value h
  refine ⟨fun c hc => hline c (hsub ?_), strip_strip _⟩
  simpa using mem_strip hc

theorem structural_subset (lines : List Line) : ∀ fence, structural fence lines ⊆ lines := by
  induction lines with
  | nil => exact fun _ => List.Subset.refl _
  | cons line rest ih =>
    intro fence
    have hrest : ∀ fence, structural fence rest ⊆ line :: rest :=
      fun fence => List.subset_cons_of_subset _ (ih fence)
    unfold structural
    split
    · exact hrest _
    · split
      · exact hrest _
      · split
        · exact List.nil_subset _
        · exact List.cons_subset_cons _ (ih fence)

/-- What the scan reads of a text is clean. -/
theorem scanPacketMetadata_clean {text key value : String}
    (h : (scanPacketMetadata text).metadata.get? key = some value) : Clean value := by
  rw [scanPacketMetadata_get?] at h
  obtain ⟨before, line, after, hlines, -, hline⟩ := firstValue_some h
  have hmem : line ∈ splitlines text := structural_subset _ none (by rw [hlines]; simp)
  exact clean_of_metaRe (splitlinesAux_unbroken [] _ (fun _ hc => by cases hc) line hmem) hline

/-! ### The binding file -/

/-- The pattern of a metadata key. -/
def isKey (key : String) : Bool :=
  key.toList.all isKeyChar && key.toList.head?.any isUpper && decide (2 ≤ key.toList.length)

theorem metaRe_entryLine {entry : String × String} (hkey : isKey entry.1 = true)
    (hvalue : strip entry.2 = entry.2) : metaRe (entryLine entry) = some entry := by
  simp only [isKey, Bool.and_eq_true, List.all_eq_true, decide_eq_true_eq] at hkey
  obtain ⟨⟨hchars, hhead⟩, hlen⟩ := hkey
  have heq : isKeyChar '=' = false := by decide
  have htake : (entryLine entry).takeWhile isKeyChar = entry.1.toList := by
    rw [entryLine, List.takeWhile_append_of_pos hchars]
    simp [heq]
  have hdrop : (entryLine entry).dropWhile isKeyChar = '=' :: entry.2.toList := by
    rw [entryLine, List.dropWhile_append_of_pos hchars]
    simp [heq]
  simp only [metaRe, htake, hdrop, hhead, hlen, String.ofList_toList, hvalue, and_self, if_true]

theorem unbroken_entryLine {entry : String × String} (hkey : isKey entry.1 = true)
    (hvalue : Unbroken entry.2.toList) : Unbroken (entryLine entry) := by
  simp only [isKey, Bool.and_eq_true, List.all_eq_true] at hkey
  intro c hc
  rw [entryLine, List.mem_append, List.mem_cons] at hc
  rcases hc with hc | rfl | hc
  · have hchar := hkey.1.1 c hc
    simp only [isKeyChar, isUpper, isDigitAscii, Bool.or_eq_true, Bool.and_eq_true,
      decide_eq_true_eq, beq_iff_eq, Char.le_def, UInt32.le_iff_toNat_le] at hchar
    have hn : (65 ≤ c.toNat ∧ c.toNat ≤ 90 ∨ 48 ≤ c.toNat ∧ c.toNat ≤ 57) ∨ c.toNat = 95 :=
      hchar.imp id (congrArg Char.toNat)
    simp only [isLineBreak, Bool.or_eq_false_iff, Bool.and_eq_false_iff, decide_eq_false_iff_not,
      beq_eq_false_iff_ne]
    omega
  · decide
  · exact hvalue c hc

/-- Lines with a key each, no key twice, are read back in their order. -/
theorem readBinding_entries : ∀ (entries : List (String × String)) (values : Metadata),
    (∀ e ∈ entries, isKey e.1 = true ∧ strip e.2 = e.2) →
    ((values.items ++ entries).map Prod.fst).Nodup →
    ∃ read, readBinding values (entries.map entryLine) = .ok read ∧
      read.items = values.items ++ entries
  | [], values, _, _ => ⟨values, rfl, by simp⟩
  | (key, value) :: entries, values, h, hnodup => by
    obtain ⟨⟨hkey, hvalue⟩, hrest⟩ := List.forall_mem_cons.mp h
    have hnew : values.get? key = none := by
      rw [Dict.get?_eq_none_iff]
      intro hmem
      rw [List.map_append, List.nodup_append] at hnodup
      exact hnodup.2.2 key hmem key (by simp) rfl
    have hitems := Dict.items_set_of_none hnew value
    obtain ⟨read, hread, hall⟩ := readBinding_entries entries (values.set key value) hrest (by
      rw [hitems, List.append_assoc]
      exact hnodup)
    refine ⟨read, ?_, by rw [hall, hitems, List.append_assoc]; rfl⟩
    rw [List.map_cons, readBinding, metaRe_entryLine hkey hvalue]
    simp only [Dict.contains, hnew, Option.isSome_none, Bool.false_eq_true, if_false]
    exact hread

/-- Entries whose lines are read back. -/
def Printable (entries : List (String × String)) : Prop :=
  ∀ e ∈ entries, isKey e.1 = true ∧ Clean e.2

theorem joinLines_toList {lines : List Line} (hne : lines ≠ []) :
    (joinLines lines).toList = lines.flatMap (· ++ ['\n']) := by
  rw [joinLines, String.toList_ofList, intercalate_newline lines hne]

theorem Printable.unbroken {entries : List (String × String)} (h : Printable entries) :
    ∀ line ∈ entries.map entryLine, Unbroken line := by
  intro line hline
  obtain ⟨e, he, rfl⟩ := List.mem_map.mp hline
  exact unbroken_entryLine (h e he).1 (h e he).2.unbroken

theorem splitlines_joinLines {lines : List Line} (hne : lines ≠ [])
    (h : ∀ line ∈ lines, Unbroken line) : splitlines (joinLines lines) = lines := by
  rw [splitlines, joinLines_toList hne, splitlines_lines lines h]

theorem universalNewlines_joinLines {lines : List Line} (hne : lines ≠ [])
    (h : ∀ line ∈ lines, Unbroken line) :
    String.ofList (universalNewlines (joinLines lines).toList) = joinLines lines := by
  rw [universalNewlines_eq_self, String.ofList_toList]
  rw [joinLines_toList hne]
  intro hmem
  obtain ⟨line, hline, hcr⟩ := List.mem_flatMap.mp hmem
  have hcr' : '\r' ∈ line := by simpa using hcr
  exact absurd (h line hline _ hcr') (by decide)

/-- How long the lines of the identity are. -/
def printedLength (entries : List (String × String)) : ℕ :=
  (entries.map fun e => e.1.toList.length + e.2.toList.length + 2).sum

theorem length_joinLines : ∀ {entries : List (String × String)}, entries ≠ [] →
    (joinLines (entries.map entryLine)).toList.length = printedLength entries := by
  intro entries hne
  rw [joinLines_toList (by simpa using hne), List.length_flatMap, List.map_map, printedLength]
  congr 2
  funext e
  simp only [entryLine, Function.comp_apply, List.length_append, List.length_cons, List.length_nil]
  omega

/-- The printed entries are refused for their length, or are the values that are checked. -/
theorem loadIdentityBinding_joinLines {entries : List (String × String)} (hne : entries ≠ [])
    (hprint : Printable entries) (hnodup : (entries.map Prod.fst).Nodup)
    (hlines : entries.length ≤ 16) :
    loadIdentityBinding (joinLines (entries.map entryLine)) =
      if 4096 < printedLength entries then .error (.context "PACKET_IDENTITY_BINDING_OVERSIZED")
      else checkBinding ⟨entries, hnodup⟩ := by
  have hmap : entries.map entryLine ≠ [] := by simpa using hne
  obtain ⟨read, hread, hitems⟩ := readBinding_entries entries ∅
    (fun e he => ⟨(hprint e he).1, (hprint e he).2.trimmed⟩) hnodup
  obtain rfl : read = ⟨entries, hnodup⟩ := Dict.ext_items hitems
  unfold loadIdentityBinding
  dsimp only
  rw [universalNewlines_joinLines hmap hprint.unbroken,
    splitlines_joinLines hmap hprint.unbroken, length_joinLines hne, List.length_map]
  have hfew : ¬ 16 < entries.length := by omega
  simp only [hfew, or_false, hread]
  rfl

/-! ### Identity entries -/

theorem isLowerHex_hexdigest (data : List ℕ) :
    ∀ c ∈ (hexdigest data).toList, isLowerHex c = true := by
  intro c hc
  rw [hexdigest, String.toList_ofList] at hc
  obtain ⟨n, -, hc⟩ := List.mem_flatMap.mp hc
  exact isLowerHex_hex2 n c hc

theorem length_hexdigest (data : List ℕ) : (hexdigest data).toList.length = 64 := by
  simp only [hexdigest, String.toList_ofList, List.length_flatMap, hex2, List.length_cons,
    List.length_nil, List.map_const', length_sha256]
  rfl

theorem sha256Re_hexdigest (data : List ℕ) : sha256Re (hexdigest data) = true := by
  simp only [sha256Re, length_hexdigest, decide_true, Bool.true_and, List.all_eq_true]
  exact isLowerHex_hexdigest data

theorem isLineBreak_isSpace {c : Char} (h : isSpace c = false) : isLineBreak c = false := by
  simp only [isSpace, isSpaceCode, isLineBreak, Bool.or_eq_false_iff, Bool.and_eq_false_iff,
    decide_eq_false_iff_not, beq_eq_false_iff_ne] at h ⊢
  omega

/-- A text without white space is clean. -/
theorem clean_of_no_space {s : String} (h : ∀ c ∈ s.toList, isSpace c = false) : Clean s :=
  ⟨fun c hc => isLineBreak_isSpace (h c hc), strip_eq_self h⟩

theorem clean_text {s : String} (h : s.toList.all (fun c => isSpace c = false) = true) : Clean s :=
  clean_of_no_space (List.all_iff_forall_prop.mp h)

theorem clean_hexdigest (data : List ℕ) : Clean (hexdigest data) :=
  clean_of_no_space fun c hc => isSpace_of_isLowerHex (isLowerHex_hexdigest data c hc)

theorem printable_identityEntries {packet : Packet} (status : AuditStatus)
    (hmetadata : ∀ key value, packet.metadata.get? key = some value → Clean value)
    (hdigest : Clean packet.bodySha256) : Printable (identityEntries packet status) := by
  have hkeys : ∀ key ∈ identityKeys, isKey key = true := by decide +kernel
  have hmissing : Clean missingIdentityValue := clean_text (by decide)
  have hstatus : Clean status.text := by cases status <;> exact clean_text (by decide)
  intro e he
  rw [identityEntries, List.mem_append, List.mem_map] at he
  rcases he with ⟨key, hkey, rfl⟩ | he
  · refine ⟨hkeys key hkey, ?_⟩
    cases hget : packet.metadata.get? key with
    | none => simpa [getD, hget] using hmissing
    | some value => simpa [getD, hget] using hmetadata key value hget
  · simp only [List.mem_cons, List.not_mem_nil, or_false] at he
    rcases he with rfl | rfl | rfl
    · exact ⟨show isKey "PACKET_BODY_SHA256" = true by decide, hdigest⟩
    · exact ⟨show isKey "PACKET_CONTEXT_AUDIT" = true by decide, hstatus⟩
    · exact ⟨by decide, clean_text (by decide)⟩

theorem identityEntries_keys (packet : Packet) (status : AuditStatus) :
    (identityEntries packet status).map Prod.fst =
      identityKeys ++ ["PACKET_BODY_SHA256", "PACKET_CONTEXT_AUDIT", "PACKET_IDENTITY"] := by
  simp [identityEntries, Function.comp_def]

theorem nodup_identityEntries (packet : Packet) (status : AuditStatus) :
    ((identityEntries packet status).map Prod.fst).Nodup := by
  rw [identityEntries_keys]
  decide +kernel

/-- The values of the identity, one for each of its keys. -/
def identityOf (metadata : Metadata) : Metadata :=
  Dict.ofList (identityKeys.map fun key => (key, getD metadata key missingIdentityValue))

/-- The identity of a packet that is not blocked passes the checks of a binding. -/
theorem checkBinding_identityEntries {packet : Packet} {status : AuditStatus}
    (hstatus : status ≠ .block) (hdigest : sha256Re packet.bodySha256 = true) :
    checkBinding ⟨identityEntries packet status, nodup_identityEntries packet status⟩ =
      .ok (identityOf packet.metadata, packet.bodySha256) := by
  set values : Metadata := ⟨identityEntries packet status, nodup_identityEntries packet status⟩
  have hget : ∀ {e}, e ∈ identityEntries packet status → values.get? e.1 = some e.2 :=
    fun he => (Dict.get?_iff_mem _ _ _).mpr he
  have hidentity : ∀ key ∈ identityKeys,
      values.get? key = some (getD packet.metadata key missingIdentityValue) :=
    fun key hkey => hget (List.mem_append_left _ (List.mem_map_of_mem hkey))
  have hsha : values.get? "PACKET_BODY_SHA256" = some packet.bodySha256 :=
    hget (e := (_, packet.bodySha256)) (List.mem_append_right _ (by simp))
  have haudit : values.get? "PACKET_CONTEXT_AUDIT" = some status.text :=
    hget (e := (_, status.text)) (List.mem_append_right _ (by simp))
  have hpass : values.get? "PACKET_IDENTITY" = some "PASS" :=
    hget (e := (_, "PASS")) (List.mem_append_right _ (by simp))
  have hmissing : identityBindingKeys.filter (fun key => !values.contains key) = [] := by
    rw [List.filter_eq_nil_iff]
    intro key hkey
    rcases List.mem_append.mp hkey with hkey | hkey
    · simp [Dict.contains, hidentity key hkey]
    · obtain rfl := List.mem_singleton.mp hkey
      simp [Dict.contains, hsha]
  have hknown : ¬ (values.get? "PACKET_CONTEXT_AUDIT" ≠ some "PASS" ∧
      values.get? "PACKET_CONTEXT_AUDIT" ≠ some "WARN") := by
    rw [haudit]
    cases status with
    | block => exact absurd rfl hstatus
    | warn => decide
    | pass => decide
  have hall : (identityKeys.map fun key => (key, getD values key "")) =
      identityKeys.map fun key => (key, getD packet.metadata key missingIdentityValue) :=
    List.map_congr_left fun key hkey => by
      rw [getD, hidentity key hkey, Option.getD_some]
  unfold checkBinding
  have hread : getD values "PACKET_BODY_SHA256" "" = packet.bodySha256 := by
    rw [getD, hsha, Option.getD_some]
  simp only [hpass, hknown, hmissing, hall, hread, hdigest, identityOf, ne_eq, not_true_eq_false,
    if_false, Bool.true_eq_false]

/-! ### Packets that are not blocked -/

theorem flag_nil {metadata : Metadata} {key label value : String} {bad : String → Bool}
    (h : flag metadata key label bad = []) (hget : metadata.get? key = some value)
    (hne : value ≠ "") : bad value = false := by
  rw [flag, getD, hget, Option.getD_some] at h
  by_contra hbad
  rw [Bool.not_eq_false] at hbad
  simp [hne, hbad] at h

/-- What the checks have let through has no key whose value is the sentinel. -/
def NoSentinel (metadata : Metadata) : Prop :=
  ∀ key ∈ identityKeys, metadata.get? key ≠ some missingIdentityValue

theorem badRevision_sentinel : badRevision missingIdentityValue = .ok true := by
  have hdigit : isDigit missingIdentityValue = false := by decide
  rw [badRevision, hdigit, if_neg (by simp)]

theorem revisionBlocking_nil {metadata : Metadata} (h : revisionBlocking metadata = .ok []) :
    metadata.get? "INTENT_REVISION" ≠ some missingIdentityValue := by
  intro hget
  have hvalue : getD metadata "INTENT_REVISION" "" = missingIdentityValue := by
    rw [getD, hget, Option.getD_some]
  have hne : missingIdentityValue ≠ "" := by decide
  unfold revisionBlocking at h
  simp only [hvalue, if_neg hne, badRevision_sentinel] at h
  cases h

theorem sortedSet_eq_nil {items : List String} : sortedSet items = [] ↔ items = [] := by
  rw [sortedSet, ← List.length_eq_zero_iff, List.length_insertionSort, List.length_eq_zero_iff,
    List.dedup_eq_nil]

/-- A packet with an authority names the profile in one of the two ways, and says nothing in the
    other. -/
theorem packetAuthority_nil {profile : Profile} {metadata : Metadata} {warnings : List String}
    (h : packetAuthority profile metadata = .ok ([], warnings)) :
    metadata.get? "EXECUTION_PROFILE" ≠ some missingIdentityValue ∧
      metadata.get? "EXECUTION_PROFILE_REVISION" ≠ some missingIdentityValue ∧
      metadata.get? "IMPLEMENTER" ≠ some missingIdentityValue := by
  have absent {key : String} (hkey : metadata.contains key = false) :
      metadata.get? key ≠ some missingIdentityValue := by
    intro hget
    simp [Dict.contains, hget] at hkey
  -- the sentinel is no profile id, and an accepted profile has one
  have hsentinel : profileIdRe missingIdentityValue = false := by decide
  unfold packetAuthority at h
  dsimp only at h
  by_cases hthree : getD metadata "PACKET_VERSION" "" = "3"
  · rw [if_pos hthree] at h
    obtain ⟨revision, hrevision, h⟩ := bind_ok.mp h
    have hnil := sortedSet_eq_nil.mp (Prod.mk.inj (Except.ok.inj h)).1
    simp only [List.append_eq_nil_iff, ite_eq_right_iff, imp_false, not_not, Bool.not_eq_true,
      List.cons_ne_nil] at hnil
    obtain ⟨⟨himplementer, hprofile⟩, rfl⟩ := hnil
    refine ⟨fun hget => ?_, fun hget => ?_, absent himplementer⟩
    · have heq := Option.some.inj (hprofile.symm.trans hget)
      have hid := profile.profileId_ok
      rw [heq, hsentinel] at hid
      cases hid
    · have hvalue : getD metadata "EXECUTION_PROFILE_REVISION" "" = missingIdentityValue := by
        rw [getD, hget, Option.getD_some]
      rw [hvalue, profileRevision, badRevision_sentinel] at hrevision
      cases hrevision
  rw [if_neg hthree] at h
  by_cases htwo : getD metadata "PACKET_VERSION" "" = "2"
  · rw [if_pos htwo] at h
    by_cases hmapped : profile.legacyV2Implementers.get? (getD metadata "IMPLEMENTER" "") =
        some profile.profileId
    · rw [if_neg (not_not.mpr hmapped)] at h
      have hnil := (Prod.mk.inj (Except.ok.inj h)).1
      simp only [ite_eq_right_iff, imp_false, Bool.or_eq_true, not_or, List.cons_ne_nil,
        Bool.not_eq_true] at hnil
      refine ⟨absent hnil.1, absent hnil.2, fun hget => ?_⟩
      rw [getD, hget, Option.getD_some] at hmapped
      have hruntime := (profile.legacy_ok _ _ hmapped).1
      have hno : runtimeIdRe missingIdentityValue = false := by decide
      rw [hno] at hruntime
      cases hruntime
    · rw [if_pos hmapped] at h
      have hnil := sortedSet_eq_nil.mp (Prod.mk.inj (Except.ok.inj h)).1
      simp at hnil
  · rw [if_neg htwo] at h
    cases h

/-- An audit that does not block has found nothing to block for. -/
theorem noSentinel_of_unblocked {loaded : Loaded} {limits : Limits} {packet : Packet}
    {audit : Audit} (h : analyzePacket loaded limits packet = .ok audit)
    (hstatus : audit.status ≠ .block) : NoSentinel packet.metadata := by
  obtain ⟨revision, hrevision, h⟩ := bind_ok.mp h
  obtain ⟨⟨blocking, compatibility⟩, hprofile, h⟩ := bind_ok.mp h
  obtain rfl := Except.ok.inj h
  dsimp only at hstatus
  have hnil := not_not.mp fun hne => hstatus (if_pos hne)
  simp only [List.append_eq_nil_iff] at hnil
  obtain ⟨⟨⟨⟨⟨⟨⟨⟨⟨⟨⟨⟨⟨-, -⟩, hversion⟩, hrepository⟩, -⟩, hworkstream⟩, hbranch⟩, hkind⟩, hintent⟩,
    hrisk⟩, hauthority⟩, hstate⟩, -⟩, -⟩ := hnil
  subst hintent hauthority
  have flagged {key label : String} {bad : String → Bool}
      (hflag : flag packet.metadata key label bad = []) (hbad : bad missingIdentityValue = true) :
      packet.metadata.get? key ≠ some missingIdentityValue := by
    intro hget
    rw [flag_nil hflag hget (by decide)] at hbad
    cases hbad
  have hprofile : ∃ profile, packetAuthority profile packet.metadata = .ok ([], compatibility) := by
    unfold profileBlocking at hprofile
    split at hprofile
    · cases hprofile
    · cases hprofile
    · exact ⟨_, hprofile⟩
  obtain ⟨hname, hrevision', himplementer⟩ := packetAuthority_nil hprofile.choose_spec
  simp only [NoSentinel, identityKeys, List.forall_mem_cons, List.not_mem_nil, false_imp_iff,
    implies_true, and_true]
  exact ⟨flagged hversion (by decide), flagged hrepository (by decide),
    flagged hworkstream (by decide), flagged hstate (by decide), flagged hbranch (by decide),
    flagged hkind (by decide), revisionBlocking_nil hrevision, flagged hrisk (by decide), hname,
    hrevision', himplementer⟩

/-! ### The identity, required -/

theorem identityOf_get? (metadata : Metadata) {key : String} (hkey : key ∈ identityKeys) :
    (identityOf metadata).get? key = some (getD metadata key missingIdentityValue) := by
  have hnodup : ((identityKeys.map fun key =>
      (key, getD metadata key missingIdentityValue)).map Prod.fst).Nodup := by
    rw [List.map_map, Function.comp_def, List.map_id']
    decide +kernel
  rw [identityOf, Dict.get?_ofList hnodup]
  exact List.mem_map_of_mem hkey

/-- The value of a key is as expected exactly when the two packets agree about it. -/
theorem mismatched_iff {metadata found : Metadata} (hsentinel : NoSentinel metadata) {key : String}
    (hkey : key ∈ identityKeys) : mismatched found (identityOf metadata) key = false ↔
      found.get? key = metadata.get? key := by
  unfold mismatched
  rw [identityOf_get? metadata hkey]
  dsimp only
  cases hget : metadata.get? key with
  | none =>
    rw [getD, hget, Option.getD_none, if_pos rfl, Dict.contains]
    cases found.get? key <;> simp
  | some value =>
    have hne : value ≠ missingIdentityValue := fun h => hsentinel key hkey (h ▸ hget)
    rw [getD, hget, Option.getD_some, if_neg hne]
    simp

theorem requireIdentity_iff {loaded : Loaded} {packet : Packet} {audit : Audit}
    {metadata : Metadata} {digest : String} (haudit : analyzePacket loaded {} packet = .ok audit)
    (hstatus : audit.status ≠ .block) (hdigest : sha256Re digest = true)
    (hsentinel : NoSentinel metadata) :
    requireIdentity loaded packet (identityOf metadata) (some digest) = .ok () ↔
      (∀ key ∈ identityKeys, packet.metadata.get? key = metadata.get? key) ∧
        packet.bodySha256 = digest := by
  have hreport : ∀ mismatches, reportMismatches mismatches = .ok () ↔ mismatches = [] := by
    intro mismatches
    unfold reportMismatches
    split <;> simp [*]
  have hrequire : requireIdentity loaded packet (identityOf metadata) (some digest) =
      reportMismatches (identityKeys.filter (mismatched packet.metadata (identityOf metadata)) ++
        if packet.bodySha256 ≠ digest then ["PACKET_BODY_SHA256"] else []) := by
    simp only [requireIdentity, haudit, hdigest, Bool.true_eq_false, if_false]
    exact if_neg hstatus
  rw [hrequire, hreport, List.append_eq_nil_iff, List.filter_eq_nil_iff]
  refine and_congr (forall₂_congr fun key hkey => ?_) (by simp)
  rw [Bool.not_eq_true, mismatched_iff hsentinel hkey]

/-! ### Numbers -/

/-- `str.isdigit`, one character. -/
def isAnyDigit (c : Char) : Bool := (digitValue c).isSome || isOtherDigit c

theorem isSpace_of_isAnyDigit {c : Char} (h : isAnyDigit c = true) : isSpace c = false := by
  have hzeros : ∀ z ∈ decimalZeros, ∀ k < 10, isSpaceCode (z + k) = false := by decide +kernel
  have hothers : ∀ r ∈ otherDigits, ∀ k < r.2 + 1 - r.1, isSpaceCode (r.1 + k) = false := by
    decide +kernel
  rcases Bool.or_eq_true_iff.mp h with h | h
  · rw [digitValue, Option.isSome_map, List.find?_isSome] at h
    obtain ⟨z, hz, hrange⟩ := h
    simp only [Bool.and_eq_true, decide_eq_true_eq] at hrange
    have hcode := hzeros z hz (c.toNat - z) (by omega)
    rwa [show z + (c.toNat - z) = c.toNat by omega] at hcode
  · obtain ⟨r, hr, hrange⟩ := List.any_eq_true.mp h
    simp only [Bool.and_eq_true, decide_eq_true_eq] at hrange
    have hcode := hothers r hr (c.toNat - r.1) (by omega)
    rwa [show r.1 + (c.toNat - r.1) = c.toNat by omega] at hcode

/-- The digits that `int` takes, as many as it takes. -/
def Decimal (text : String) : Prop :=
  (∀ c ∈ text.toList, (digitValue c).isSome = true) ∧ text.toList.length ≤ 4300

/-- If the text passes for digits, `int` takes it. -/
def Convertible (revision : String) : Prop := isDigit revision = true → Decimal revision

theorem digitsAux_length : ∀ cs : List Char, cs ≠ [] → '_' ∉ cs →
    (digitsAux cs).map List.length =
      if cs.all (fun c => (digitValue c).isSome) then some cs.length else none
  | [], h, _ => absurd rfl h
  | [c], _, _ => by
    cases hc : digitValue c <;> simp [digitsAux, hc]
  | c :: d :: cs, _, h => by
    have hd : d ≠ '_' := fun hd => h (by simp [hd])
    have ih := digitsAux_length (d :: cs) (by simp) fun hmem => h (List.mem_cons_of_mem _ hmem)
    rw [digitsAux]
    · cases hc : digitValue c with
      | none => simp [hc]
      | some n =>
        -- without an underscore each character is a digit of its own
        have hmap : ((digitsAux (d :: cs)).map (n :: ·)).map List.length =
            ((digitsAux (d :: cs)).map List.length).map (· + 1) := by
          simp [Option.map_map, Function.comp_def]
        have hall : (c :: d :: cs).all (fun e => (digitValue e).isSome) =
            (d :: cs).all fun e => (digitValue e).isSome := by
          rw [List.all_cons, hc, Option.isSome_some, Bool.true_and]
        rw [Option.bind_some, hmap, ih, hall]
        split <;> rfl
    · simp
    · exact fun cs' heq => hd (List.cons.inj heq).1

/-- `int` of a text of digits, which has no sign, no blank and no underscore. -/
theorem int_eq_digits {text : String} (hnil : text.toList ≠ [])
    (hchars : ∀ c ∈ text.toList, isAnyDigit c = true) :
    int text = match digitsAux text.toList with
      | none => .error .valueError
      | some ds =>
        if 4300 < ds.length then .error .valueError
        else .ok (ds.foldl (fun n d => 10 * n + d) 0 : ℕ) := by
  have hno {c : Char} (hc : isAnyDigit c = false) : c ∉ text.toList := fun hmem => by
    rw [hchars c hmem] at hc
    cases hc
  unfold int
  rw [strip_eq_self fun c hc => isSpace_of_isAnyDigit (hchars c hc)]
  cases hlist : text.toList with
  | nil => exact absurd hlist hnil
  | cons c cs =>
    have hminus : c ≠ '-' := by
      rintro rfl
      exact hno (c := '-') (by decide) (by simp [hlist])
    have hplus : c ≠ '+' := by
      rintro rfl
      exact hno (c := '+') (by decide) (by simp [hlist])
    cases hread : digitsAux (c :: cs) with
    | none => simp [hminus, hplus, hread]
    | some ds => simp [hminus, hplus, hread]

/-- On a text that passes for digits, `int` returns for the decimal ones. -/
theorem int_digits {text : String} (h : isDigit text = true) :
    (∃ n, int text = .ok n) ↔ Decimal text := by
  simp only [isDigit, Bool.and_eq_true, decide_eq_true_eq, List.all_eq_true] at h
  obtain ⟨hne, hdigits⟩ := h
  have hchars : ∀ c ∈ text.toList, isAnyDigit c = true := hdigits
  have hnil : text.toList ≠ [] := by simpa using hne
  have hno : '_' ∉ text.toList := fun hmem => absurd (hchars _ hmem) (by decide)
  have hlen := digitsAux_length text.toList hnil hno
  rw [int_eq_digits hnil hchars]
  cases hread : digitsAux text.toList with
  | none =>
    rw [hread] at hlen
    have hall : ¬ ∀ c ∈ text.toList, (digitValue c).isSome = true := by
      intro hall
      rw [if_pos (List.all_eq_true.mpr hall)] at hlen
      cases hlen
    simp [Decimal, hall]
  | some ds =>
    rw [hread] at hlen
    have hall : ∀ c ∈ text.toList, (digitValue c).isSome = true := by
      by_contra hall
      rw [if_neg (mt List.all_eq_true.mp hall)] at hlen
      cases hlen
    rw [if_pos (List.all_eq_true.mpr hall)] at hlen
    have hds : ds.length = text.toList.length := Option.some.inj hlen
    dsimp only
    rw [Decimal, ← hds]
    by_cases hlong : 4300 < ds.length
    · simp [hlong]
    · simpa [hlong] using ⟨hall, Nat.le_of_not_lt hlong⟩

/-! ### Calls that answer -/

/-- The call returns or raises `ContextError`. -/
def Handled {α : Type} (x : Except EpochError α) : Prop := ∀ e, x ≠ .error (.builtin e)

/-- The call returns if the condition holds, and else raises a built-in exception. -/
structure ReturnsIff {α : Type} (c : Prop) (x : Except EpochError α) : Prop where
  returns : c → ∃ a, x = .ok a
  raises : ¬ c → ∃ e, x = .error (.builtin e)

theorem ReturnsIff.of_iff {α : Type} {c d : Prop} {x : Except EpochError α} (h : ReturnsIff c x)
    (hiff : c ↔ d) : ReturnsIff d x :=
  ⟨fun hd => h.returns (hiff.mpr hd), fun hd => h.raises fun hc => hd (hiff.mp hc)⟩

theorem ReturnsIff.of_ok {α : Type} {c : Prop} {x : Except EpochError α} {a : α}
    (h : ReturnsIff c x) (hx : x = .ok a) : c := by
  by_contra hc
  obtain ⟨e, he⟩ := h.raises hc
  rw [hx] at he
  cases he

theorem ReturnsIff.handled_iff {α : Type} {c : Prop} {x : Except EpochError α}
    (h : ReturnsIff c x) : Handled x ↔ c := by
  constructor
  · intro hx
    by_contra hc
    obtain ⟨e, he⟩ := h.raises hc
    exact hx e he
  · intro hc e he
    obtain ⟨a, ha⟩ := h.returns hc
    rw [ha] at he
    cases he

theorem returnsIff_ok {α : Type} (a : α) : ReturnsIff True (.ok a : Except EpochError α) :=
  ⟨fun _ => ⟨a, rfl⟩, fun h => absurd trivial h⟩

theorem returnsIff_error {α : Type} (e : PyError) :
    ReturnsIff False (.error (.builtin e) : Except EpochError α) :=
  ⟨False.elim, fun _ => ⟨e, rfl⟩⟩

theorem ReturnsIff.bind {α β : Type} {c d : Prop} {x : Except EpochError α}
    {f : α → Except EpochError β} (h : ReturnsIff c x) (hf : ∀ a, x = .ok a → ReturnsIff d (f a)) :
    ReturnsIff (c ∧ d) (x >>= f) := by
  by_cases hc : c
  · obtain ⟨a, rfl⟩ := h.returns hc
    exact (hf a rfl).of_iff (by simp [hc])
  · obtain ⟨e, rfl⟩ := h.raises hc
    exact (returnsIff_error e).of_iff (by simp [hc])

theorem ReturnsIff.map {α β : Type} {c : Prop} {x : Except EpochError α} (h : ReturnsIff c x)
    (f : α → β) : ReturnsIff c (x.map f) := by
  constructor
  · intro hc
    obtain ⟨a, rfl⟩ := h.returns hc
    exact ⟨f a, rfl⟩
  · intro hc
    obtain ⟨e, rfl⟩ := h.raises hc
    exact ⟨e, rfl⟩

theorem returnsIff_int {text : String} (h : isDigit text = true) :
    ReturnsIff (Decimal text) (raised (int text)) := by
  cases hint : int text with
  | ok n => exact (returnsIff_ok n).of_iff (iff_of_true trivial ((int_digits h).mp ⟨n, hint⟩))
  | error e =>
    refine (returnsIff_error e).of_iff (iff_of_false not_false fun hdecimal => ?_)
    obtain ⟨n, hn⟩ := (int_digits h).mpr hdecimal
    rw [hint] at hn
    cases hn

theorem returnsIff_badRevision (revision : String) :
    ReturnsIff (Convertible revision) (badRevision revision) := by
  unfold badRevision
  split
  · rename_i hdigit
    exact ((returnsIff_int hdigit).map _).of_iff (by simp [Convertible, hdigit])
  · rename_i hdigit
    exact (returnsIff_ok true).of_iff (by simp [Convertible, hdigit])

theorem badRevision_false {revision : String} (h : badRevision revision = .ok false) :
    Decimal revision := by
  have hdigit : isDigit revision = true := by
    by_contra hdigit
    rw [badRevision, if_neg hdigit] at h
    cases h
  exact (returnsIff_badRevision revision).of_ok h hdigit

theorem returnsIff_profileRevision (selected : ℤ) (revision : String) :
    ReturnsIff (Convertible revision) (profileRevision selected revision) := by
  refine ((returnsIff_badRevision revision).bind (d := True) fun bad hbad => ?_).of_iff (by simp)
  cases bad with
  | true => exact returnsIff_ok _
  | false =>
    have hdecimal := badRevision_false hbad
    have hdigit : isDigit revision = true := by
      by_contra hdigit
      rw [badRevision, if_neg hdigit] at hbad
      cases hbad
    exact ((returnsIff_int hdigit).bind fun _ _ => returnsIff_ok _).of_iff (by simp [hdecimal])

theorem returnsIff_revisionBlocking (metadata : Metadata) :
    ReturnsIff (Convertible (getD metadata "INTENT_REVISION" "")) (revisionBlocking metadata) := by
  unfold revisionBlocking
  dsimp only
  split
  · rename_i hnone
    rw [hnone]
    exact (returnsIff_ok _).of_iff (by simp [Convertible, isDigit])
  · exact ((returnsIff_badRevision _).bind fun _ _ => returnsIff_ok _).of_iff (by simp)

theorem returnsIff_packetAuthority (profile : Profile) (metadata : Metadata) :
    ReturnsIff (getD metadata "PACKET_VERSION" "" = "3" →
        Convertible (getD metadata "EXECUTION_PROFILE_REVISION" ""))
      (packetAuthority profile metadata) := by
  unfold packetAuthority
  dsimp only
  split
  · rename_i hthree
    have hrevision := returnsIff_profileRevision profile.revision
      (getD metadata "EXECUTION_PROFILE_REVISION" "")
    exact (hrevision.bind fun _ _ => returnsIff_ok _).of_iff (by simp [hthree])
  · rename_i hthree
    split
    · split
      · exact (returnsIff_ok _).of_iff (by simp [hthree])
      · exact (returnsIff_ok _).of_iff (by simp [hthree])
    · exact (returnsIff_ok _).of_iff (by simp [hthree])

/-- The profile is read without a surprise, and the revisions that the checks convert can be
    converted. -/
def Readable (loaded : Loaded) (metadata : Metadata) : Prop :=
  Convertible (getD metadata "INTENT_REVISION" "") ∧
    match loaded with
    | .error .profile => True
    | .error (.builtin _) => False
    | .ok _ => getD metadata "PACKET_VERSION" "" = "3" →
        Convertible (getD metadata "EXECUTION_PROFILE_REVISION" "")

theorem returnsIff_analyzePacket (loaded : Loaded) (limits : Limits) (packet : Packet) :
    ReturnsIff (Readable loaded packet.metadata) (analyzePacket loaded limits packet) := by
  refine (returnsIff_revisionBlocking packet.metadata).bind fun revision _ => ?_
  have hprofile : ReturnsIff (match loaded with
      | .error .profile => True
      | .error (.builtin _) => False
      | .ok _ => getD packet.metadata "PACKET_VERSION" "" = "3" →
          Convertible (getD packet.metadata "EXECUTION_PROFILE_REVISION" ""))
      (profileBlocking loaded packet.metadata) := by
    match loaded with
    | .error .profile => exact returnsIff_ok _
    | .error (.builtin e) => exact returnsIff_error e
    | .ok profile => exact returnsIff_packetAuthority profile packet.metadata
  exact (hprofile.bind fun _ _ => returnsIff_ok _).of_iff (and_iff_left trivial)

theorem handled_bind {α β : Type} {x : Except EpochError α} {f : α → Except EpochError β}
    (hf : ∀ a, x = .ok a → Handled (f a)) : Handled (x >>= f) ↔ Handled x := by
  cases x with
  | ok a => exact iff_of_true (hf a rfl) fun e he => by cases he
  | error e => exact forall_congr' fun e' => by simp [bind, Except.bind]

theorem handled_context {α : Type} (reason : String) :
    Handled (.error (.context reason) : Except EpochError α) := fun e he => by cases he

theorem handled_packetIdentity (loaded : Loaded) (packet : Packet) :
    Handled (packetIdentity loaded packet) ↔ Readable loaded packet.metadata := by
  rw [← (returnsIff_analyzePacket loaded {} packet).handled_iff]
  refine handled_bind fun audit _ => ?_
  split
  · exact handled_context _
  · exact fun e he => by cases he

theorem handled_requireIdentity (loaded : Loaded) (packet : Packet) (expected : Metadata)
    (digest : Option String) :
    Handled (requireIdentity loaded packet expected digest) ↔ Readable loaded packet.metadata := by
  have hreport : ∀ mismatches, Handled (reportMismatches mismatches) := by
    intro mismatches
    unfold reportMismatches
    split
    · exact fun e he => by cases he
    · exact handled_context _
  rw [← (returnsIff_analyzePacket loaded {} packet).handled_iff]
  refine handled_bind fun audit _ => ?_
  split
  · exact handled_context _
  · dsimp only
    split
    · exact hreport _
    · split
      · exact handled_context _
      · exact hreport _

/-! ### Every text -/

/-- The checks of the text return or raise `ContextError`. -/
def Answers (loaded : Loaded) (limits : Limits) (text : PyStr) : Prop :=
  Handled (parsePacket text >>= analyzePacket loaded limits) ∧
    Handled (parsePacket text >>= packetIdentity loaded) ∧
    ∀ expected digest,
      Handled (parsePacket text >>= fun packet => requireIdentity loaded packet expected digest)

/-- The text has no lone surrogate, and its packet is readable. -/
def ReadableText (loaded : Loaded) (text : PyStr) : Prop :=
  ∃ packet, parsePacket text = .ok packet ∧ Readable loaded packet.metadata

theorem answers_iff (loaded : Loaded) (limits : Limits) (text : PyStr) :
    Answers loaded limits text ↔ ReadableText loaded text := by
  unfold Answers ReadableText
  cases hparse : parsePacket text with
  | error e =>
    have hbuiltin : e = .builtin .unicodeError := by
      unfold parsePacket at hparse
      split at hparse
      · exact (Except.error.inj hparse).symm
      · cases hparse
    subst hbuiltin
    exact iff_of_false (fun h => h.1 .unicodeError rfl) (by simp)
  | ok packet =>
    have hone : (∃ packet', (.ok packet : Except EpochError Packet) = .ok packet' ∧
        Readable loaded packet'.metadata) ↔ Readable loaded packet.metadata := by simp
    rw [hone]
    constructor
    · exact fun h => (returnsIff_analyzePacket loaded limits packet).handled_iff.mp h.1
    · exact fun h => ⟨(returnsIff_analyzePacket loaded limits packet).handled_iff.mpr h,
        (handled_packetIdentity loaded packet).mpr h,
        fun expected digest => (handled_requireIdentity loaded packet expected digest).mpr h⟩

/-- The values of the identity leave the lines of their keys room in 4096 characters. -/
def Fits (metadata : Metadata) : Prop :=
  (identityKeys.map fun key => (getD metadata key missingIdentityValue).toList.length).sum ≤ 3807

instance (metadata : Metadata) : Decidable (Fits metadata) := Nat.decLe _ _

theorem printedLength_identityEntries {packet : Packet} {status : AuditStatus}
    (hstatus : status ≠ .block) (hdigest : packet.bodySha256.toList.length = 64) :
    printedLength (identityEntries packet status) =
      (identityKeys.map fun key =>
        (getD packet.metadata key missingIdentityValue).toList.length).sum + 289 := by
  have htext : status.text.toList.length = 4 := by
    cases status with
    | block => exact absurd rfl hstatus
    | warn => rfl
    | pass => rfl
  have hsum : ∀ keys : List String,
      printedLength (keys.map fun key => (key, getD packet.metadata key missingIdentityValue)) =
        (keys.map fun key => (getD packet.metadata key missingIdentityValue).toList.length).sum +
          (keys.map fun key => key.toList.length + 2).sum := by
    intro keys
    induction keys with
    | nil => rfl
    | cons key keys ih =>
      simp only [printedLength, List.map_cons, List.sum_cons] at ih ⊢
      omega
  have hkeys : (identityKeys.map fun key => key.toList.length + 2).sum = 158 := by decide +kernel
  have htail : printedLength [("PACKET_BODY_SHA256", packet.bodySha256),
      ("PACKET_CONTEXT_AUDIT", status.text), ("PACKET_IDENTITY", "PASS")] = 131 := by
    simp only [printedLength, List.map_cons, List.map_nil, List.sum_cons, List.sum_nil, hdigest,
      htext]
    rfl
  have happend : ∀ a b : List (String × String),
      printedLength (a ++ b) = printedLength a + printedLength b := by
    intro a b
    simp only [printedLength, List.map_append, List.sum_append]
  rw [identityEntries, happend, hsum, hkeys, htail]

/-- What `packet_identity` has printed. -/
theorem packetIdentity_ok {loaded : Loaded} {packet : Packet} {out : String}
    (h : packetIdentity loaded packet = .ok out) :
    ∃ audit, analyzePacket loaded {} packet = .ok audit ∧ audit.status ≠ .block ∧
      out = joinLines ((identityEntries packet audit.status).map entryLine) := by
  obtain ⟨audit, haudit, h⟩ := bind_ok.mp h
  obtain ⟨hstatus, h⟩ := guard_ok.mp h
  exact ⟨audit, haudit, hstatus, (Except.ok.inj h).symm⟩

/-- What the identity needs to know of a packet that has been parsed. -/
structure Parsed (packet : Packet) : Prop where
  metadata : ∀ key value, packet.metadata.get? key = some value → Clean value
  clean : Clean packet.bodySha256
  digest : sha256Re packet.bodySha256 = true
  length : packet.bodySha256.toList.length = 64

theorem parsed_packetOf (body : String) : Parsed (packetOf body) where
  metadata := fun _ _ => scanPacketMetadata_clean
  clean := clean_hexdigest _
  digest := sha256Re_hexdigest _
  length := length_hexdigest _

theorem parsePacket_parsed {text : PyStr} {packet : Packet} (h : parsePacket text = .ok packet) :
    Parsed packet := by
  unfold parsePacket at h
  split at h
  · cases h
  · rw [← Except.ok.inj h]
    exact parsed_packetOf _

theorem length_identityEntries (packet : Packet) (status : AuditStatus) :
    (identityEntries packet status).length = 14 := by
  have hlen := congrArg List.length (identityEntries_keys packet status)
  rwa [List.length_map] at hlen

/-- The printed identity is read back exactly when it fits. -/
theorem loadIdentityBinding_identity {packet : Packet} {status : AuditStatus}
    (hparsed : Parsed packet) (hstatus : status ≠ .block) :
    loadIdentityBinding (joinLines ((identityEntries packet status).map entryLine)) =
      if Fits packet.metadata then .ok (identityOf packet.metadata, packet.bodySha256)
      else .error (.context "PACKET_IDENTITY_BINDING_OVERSIZED") := by
  have hlines := length_identityEntries packet status
  have hne : identityEntries packet status ≠ [] := fun hnil => by
    rw [hnil] at hlines
    cases hlines
  rw [loadIdentityBinding_joinLines hne
      (printable_identityEntries status hparsed.metadata hparsed.clean)
      (nodup_identityEntries packet status) (by omega),
    checkBinding_identityEntries hstatus hparsed.digest,
    printedLength_identityEntries hstatus hparsed.length]
  by_cases hfits : Fits packet.metadata
  · rw [if_pos hfits, if_neg (by rw [Fits] at hfits; omega)]
  · rw [if_neg hfits, if_pos (by rw [Fits] at hfits; omega)]

/-! ### The round trip -/

/-- The identity of the text is read back, and holds a second text to the digest of the first. -/
def RoundTrips (now later : Loaded) (text second : PyStr) : Prop :=
  ∀ packet out, parsePacket text = .ok packet → packetIdentity now packet = .ok out →
    ∃ identity digest, loadIdentityBinding out = .ok (identity, digest) ∧
      ∀ packet' audit, parsePacket second = .ok packet' →
        analyzePacket later {} packet' = .ok audit → audit.status ≠ .block →
        (requireIdentity later packet' identity (some digest) = .ok () ↔
          packet'.bodySha256 = packet.bodySha256)

/-- The identity fits, and the digests do not collide: a second packet with the digest of the first
    has its metadata. -/
def Binds (now later : Loaded) (text second : PyStr) : Prop :=
  ∀ packet out, parsePacket text = .ok packet → packetIdentity now packet = .ok out →
    Fits packet.metadata ∧
      ∀ packet' audit, parsePacket second = .ok packet' →
        analyzePacket later {} packet' = .ok audit → audit.status ≠ .block →
        packet'.bodySha256 = packet.bodySha256 →
        ∀ key ∈ identityKeys, packet'.metadata.get? key = packet.metadata.get? key

theorem roundTrips_iff (now later : Loaded) (text second : PyStr) :
    RoundTrips now later text second ↔ Binds now later text second := by
  refine forall_congr' fun packet => forall_congr' fun out => ?_
  refine imp_congr_right fun hparse => imp_congr_right fun hout => ?_
  obtain ⟨audit, haudit, hstatus, rfl⟩ := packetIdentity_ok hout
  have hparsed := parsePacket_parsed hparse
  have hsentinel := noSentinel_of_unblocked haudit hstatus
  rw [loadIdentityBinding_identity hparsed hstatus]
  by_cases hfits : Fits packet.metadata
  · rw [if_pos hfits]
    have hread : ∀ (P : Metadata → String → Prop), (∃ identity digest,
        (.ok (identityOf packet.metadata, packet.bodySha256) : Except EpochError _) =
          .ok (identity, digest) ∧ P identity digest) ↔
        P (identityOf packet.metadata) packet.bodySha256 := by
      intro P
      simp
    rw [hread, and_iff_right hfits]
    refine forall_congr' fun packet' => forall_congr' fun audit' => ?_
    refine imp_congr_right fun _ => imp_congr_right fun haudit' => ?_
    refine imp_congr_right fun hstatus' => ?_
    rw [requireIdentity_iff haudit' hstatus' hparsed.digest hsentinel]
    exact and_iff_right_iff_imp
  · simp [hfits]

/-- The checks answer exactly for the readable texts, and an identity makes the round trip exactly
    when it fits and its digest does not collide. -/
theorem packet_identity_iff (now later : Loaded) (limits : Limits) (text second : PyStr) :
    (Answers now limits text ↔ ReadableText now text) ∧
      (RoundTrips now later text second ↔ Binds now later text second) :=
  ⟨answers_iff now limits text, roundTrips_iff now later text second⟩

/-! ### Samples -/

/-- A text without lone surrogates. -/
def ofText (text : String) : PyStr := text.toList.map fun c => Fin.ofNat 0x110000 c.toNat

theorem encodable_ofText (text : String) : encodable (ofText text) = some text := by
  have hchar : ∀ c : Char, Json.scalar (Fin.ofNat 0x110000 c.toNat).val = some c := by
    intro c
    have hlt : c.toNat < 0x110000 := by
      rcases c.valid with h | ⟨-, h⟩
      · exact lt_trans h (by decide)
      · exact h
    have hval : (Fin.ofNat 0x110000 c.toNat).val = c.toNat := Nat.mod_eq_of_lt hlt
    rw [hval, Json.scalar, dif_pos (show c.toNat.isValidChar from c.valid)]
    rfl
  have hall : ∀ cs : List Char, (cs.map fun c => Fin.ofNat 0x110000 c.toNat).mapM
      (fun c => Json.scalar c.val) = some cs := by
    intro cs
    induction cs with
    | nil => rfl
    | cons c cs ih => simp only [List.map_cons, List.mapM_cons, hchar, ih]; rfl
  rw [encodable, ofText, hall, Option.map_some, String.ofList_toList]

/-- The managed profile in its third revision. -/
def sampleProfile : Profile where
  profileId := "datarelay-managed"
  revision := 3
  legacyV2Implementers := ∅
  profileId_ok := by decide +kernel
  revision_ok := by decide
  legacy_ok := by simp

/-- A packet of version 3, with a revision of its intent. -/
def sampleText (revision : String) : String :=
  "PACKET_VERSION=3\nTARGET_REPO=o/r\nWORKSTREAM=ws\nSTATUS=ACTIVE\nBRANCH=main\n" ++
  "TASK_KIND=IMPLEMENT\nOWNER_INTENT=go on\nINTENT_REVISION=" ++ revision ++ "\nCHANGE_RISK=LOW\n" ++
  "EXECUTION_PROFILE=datarelay-managed\nEXECUTION_PROFILE_REVISION=3\n" ++
  "## Goal\n## Current State\n## Next Action\n## Blockers\n"

example : (analyzePacket (.ok sampleProfile) {} (packetOf (sampleText "1"))).map Audit.status =
    .ok .pass := by
  decide +kernel

/-- A superscript two passes for a digit, and the conversion of it raises `ValueError`. -/
theorem superscript_escapes :
    (parsePacket (ofText (sampleText "²")) >>= analyzePacket (.ok sampleProfile) {}) =
        .error (.builtin .valueError) ∧
      ¬ Answers (.ok sampleProfile) {} (ofText (sampleText "²")) := by
  have hraise : (parsePacket (ofText (sampleText "²")) >>= analyzePacket (.ok sampleProfile) {}) =
      .error (.builtin .valueError) := by
    rw [parsePacket, encodable_ofText]
    decide +kernel
  exact ⟨hraise, fun h => h.1 _ hraise⟩

end DataRelay.Tools.Context
