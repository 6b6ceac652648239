import RatelPlatform.AuditBinding

/-!
# Recording and then verifying

Every recorded row is sealed: `jsonb` may reorder keys, and the canonical text
does not see their order. What may fail is the linkage. The writer links to a row
of the latest millisecond and the verifier walks the rows by millisecond, so the
two agree about the order exactly when no two rows of the organization share one.
-/

namespace RatelPlatform

/-- The clock readings taken for an organization, in the order of its calls. -/
def readings (organizationId : JsString) (calls : List RecordCall) : List ℤ :=
  (calls.filter fun call => call.input.organizationId = organizationId).map (·.now.ms)

variable {sha256 : List Char → JsString} {jsonb : JsonData → JsonData} {org : JsString}

/-! ## Recorded rows are sealed -/

theorem nullish_optionalJs (column : Option JsonData) :
    nullish (optionalJs column) = (AuditLogEntry.columnJson column).toJs := by
  rcases column with _ | d
  · rfl
  · exact nullish_toJs d.value

/-- What `jsonb` hands back has the canonical form of what was stored. -/
theorem canonical_column (hjsonb : ∀ d : JsonData, d.value.Same (jsonb d).value)
    (column : Option JsonData) :
    (AuditLogEntry.columnJson (column.map jsonb)).canonical =
      (AuditLogEntry.columnJson column).canonical := by
  rcases column with _ | d
  · rfl
  · exact ((hjsonb d).canonical_eq d.unique (jsonb d).unique).symm

theorem RecordCall.entry_sealed (hjsonb : ∀ d : JsonData, d.value.Same (jsonb d).value)
    (call : RecordCall) (p : JsString) : (call.entry sha256 jsonb p).Sealed sha256 := by
  have hpayload : entryPayloadV2 p call.hashable =
      (Json.object (entryMembersV2 p call.hashable.toHashableEntry
        (AuditLogEntry.columnJson call.input.oldValue)
        (AuditLogEntry.columnJson call.input.newValue) call.input.reason)).toJs := by
    simp only [entryPayloadV2, RecordCall.hashable, nullish_optionalJs]
    rfl
  -- of the fields that are hashed, only the two JSON columns went through the database
  have hrow := @computeEntryHashV2_row sha256 p (call.entry sha256 jsonb p)
  rw [show (call.entry sha256 jsonb p).oldValue = call.input.oldValue.map jsonb from rfl,
    show (call.entry sha256 jsonb p).newValue = call.input.newValue.map jsonb from rfl,
    entryMembersV2_canonical_congr (canonical_column hjsonb _) (canonical_column hjsonb _)] at hrow
  refine congrArg some (hrow.trans ?_)
  refine Eq.trans ?_ (congrArg (fun payload => sha256 (canonicalStringify payload)) hpayload).symm
  rfl

/-! ## The rows of one organization -/

theorem recordAll_concat (calls : List RecordCall) (call : RecordCall) :
    recordAll sha256 jsonb (calls ++ [call]) =
      record sha256 jsonb (recordAll sha256 jsonb calls) call := by
  rw [recordAll, List.foldl_append]
  rfl

/-- The rows of an organization after one more call: another organization's call
adds none, and its own adds one that is linked to the row the database picks. -/
theorem rowsOf_concat (calls : List RecordCall) (call : RecordCall) :
    rowsOf org (recordAll sha256 jsonb (calls ++ [call])) =
      rowsOf org (recordAll sha256 jsonb calls) ++
        if call.input.organizationId = org then
          [call.entry sha256 jsonb
            (((findLatest org call.pick (recordAll sha256 jsonb calls)).map
              (·.entryHash)).getD genesisHash)]
        else [] := by
  rw [recordAll_concat, record, rowsOf, List.filter_append]
  congr 1
  split_ifs with h
  · rw [h]
    exact List.filter_cons_of_pos (decide_eq_true h)
  · exact List.filter_cons_of_neg (fun hdec => h (of_decide_eq_true hdec))

theorem readings_concat (calls : List RecordCall) (call : RecordCall) :
    readings org (calls ++ [call]) =
      readings org calls ++ if call.input.organizationId = org then [call.now.ms] else [] := by
  rw [readings, List.filter_append, List.map_append]
  congr 1
  split_ifs with h
  · simp [h]
  · simp [h]

/-- Rows keep the readings they were taken at, in the order of the calls. -/
theorem map_createdAt_rowsOf (calls : List RecordCall) :
    (rowsOf org (recordAll sha256 jsonb calls)).map (·.createdAt.ms) = readings org calls := by
  induction calls using List.reverseRecOn with
  | nil => rfl
  | append_singleton calls call ih =>
    rw [rowsOf_concat, readings_concat, List.map_append, ih]
    split_ifs with h
    · rfl
    · rfl

theorem sealed_of_mem_rowsOf (hjsonb : ∀ d : JsonData, d.value.Same (jsonb d).value)
    (calls : List RecordCall) :
    ∀ row ∈ rowsOf org (recordAll sha256 jsonb calls), row.Sealed sha256 := by
  induction calls using List.reverseRecOn with
  | nil => exact fun _ hr => absurd hr List.not_mem_nil
  | append_singleton calls call ih =>
    intro row hrow
    rw [rowsOf_concat] at hrow
    rcases List.mem_append.mp hrow with hrow | hrow
    · exact ih row hrow
    · split_ifs at hrow with h
      · rw [List.mem_singleton.mp hrow]
        exact call.entry_sealed hjsonb _
      · exact absurd hrow List.not_mem_nil

/-! ## Strictly increasing readings -/

/-- Of rows whose readings strictly increase, only the last can be listed first. -/
theorem latestRows_of_strict {log : List AuditLogEntry}
    (hstrict : (rowsOf org log).Pairwise fun a b => a.createdAt.ms < b.createdAt.ms) :
    latestRows org log = (rowsOf org log).getLast?.toList := by
  simp only [latestRows]
  rcases List.eq_nil_or_concat' (rowsOf org log) with h | ⟨init, last, h⟩
  · rw [h]
    rfl
  · rw [h] at hstrict ⊢
    obtain ⟨-, -, hlt⟩ := List.pairwise_append.mp hstrict
    have hinit : init.filter (fun row => (init ++ [last]).all fun other =>
        other.createdAt.ms ≤ row.createdAt.ms) = [] := by
      refine List.filter_eq_nil_iff.mpr (fun row hrow hall => ?_)
      have hle := List.all_eq_true.mp hall last (by simp)
      have hlt := hlt row hrow last List.mem_cons_self
      rw [decide_eq_true_eq] at hle
      omega
    have hlast : ∀ other ∈ init ++ [last], other.createdAt.ms ≤ last.createdAt.ms := by
      intro other hother
      rcases List.mem_append.mp hother with hother | hother
      · exact (hlt other hother last List.mem_cons_self).le
      · rw [List.mem_singleton.mp hother]
    rw [List.filter_append, hinit, List.getLast?_concat, List.nil_append]
    refine List.filter_cons_of_pos (List.all_eq_true.mpr fun other hother => ?_)
    exact decide_eq_true (hlast other hother)

theorem findLatest_of_strict {log : List AuditLogEntry} {pick : ℕ}
    (hstrict : (rowsOf org log).Pairwise fun a b => a.createdAt.ms < b.createdAt.ms) :
    findLatest org pick log = (rowsOf org log).getLast? := by
  simp only [findLatest]
  rw [latestRows_of_strict hstrict]
  rcases (rowsOf org log).getLast? with _ | last
  · rfl
  · show [last][pick % 1]? = some last
    rw [Nat.mod_one]
    rfl

theorem strict_rowsOf_iff (calls : List RecordCall) :
    ((rowsOf org (recordAll sha256 jsonb calls)).Pairwise
      fun a b => a.createdAt.ms < b.createdAt.ms) ↔ (readings org calls).Pairwise (· < ·) := by
  rw [← @map_createdAt_rowsOf sha256 jsonb org calls, List.pairwise_map]

/-- **While the readings strictly increase, the rows are linked in the order of the calls.** -/
theorem linked_of_strict (calls : List RecordCall)
    (hstrict : (readings org calls).Pairwise (· < ·)) :
    AuditLinked genesisHash (rowsOf org (recordAll sha256 jsonb calls)) := by
  induction calls using List.reverseRecOn with
  | nil => trivial
  | append_singleton calls call ih =>
    rw [readings_concat] at hstrict
    have hbefore := (List.pairwise_append.mp hstrict).1
    rw [rowsOf_concat]
    split_ifs with h
    · refine Linked.concat_iff.mpr ⟨ih hbefore, ?_⟩
      rw [findLatest_of_strict ((strict_rowsOf_iff calls).mpr hbefore), chainTip_eq_getLast?]
      rfl
    · rw [List.append_nil]
      exact ih hbefore

/-- Rows of different milliseconds have one ascending order. -/
theorem Ascending.eq_of_strict {log rows : List AuditLogEntry} (h : Ascending org log rows)
    (hstrict : (rowsOf org log).Pairwise fun a b => a.createdAt.ms < b.createdAt.ms) :
    rows = rowsOf org log := by
  have hnodup : ((rowsOf org log).map (·.createdAt.ms)).Nodup :=
    (List.pairwise_map.mpr hstrict).imp fun hlt => ne_of_lt hlt
  refine List.Perm.eq_of_pairwise ?_ h.2 (hstrict.imp fun hlt => le_of_lt hlt) h.1
  intro a b ha hb hab hba
  exact List.inj_on_of_nodup_map hnodup (h.1.mem_iff.mp ha) hb (le_antisymm hab hba)

/-! ## Repeated readings -/

/-- Neighbours of one millisecond can trade places in the verifier's order. -/
theorem Ascending.swap {log init rest : List AuditLogEntry} {a b : AuditLogEntry}
    (h : Ascending org log (init ++ a :: b :: rest)) (hab : a.createdAt.ms = b.createdAt.ms) :
    Ascending org log (init ++ b :: a :: rest) := by
  have hswap : (init ++ b :: a :: rest).Perm (init ++ a :: b :: rest) :=
    (List.Perm.swap a b rest).append_left init
  refine ⟨hswap.trans h.1, ?_⟩
  obtain ⟨hinit, htail, hcross⟩ := List.pairwise_append.mp h.2
  obtain ⟨ha, hb, hrest⟩ := List.pairwise_cons.mp htail |>.imp_right List.pairwise_cons.mp
  refine List.pairwise_append.mpr ⟨hinit, ?_, fun x hx y hy => ?_⟩
  · refine List.pairwise_cons.mpr ⟨?_, List.pairwise_cons.mpr ⟨?_, hrest⟩⟩
    · exact List.forall_mem_cons.mpr ⟨hab.ge, hb⟩
    · exact fun x hx => ha x (List.mem_cons_of_mem _ hx)
  · exact hcross x hx y ((List.Perm.swap a b rest).mem_iff.mp hy)

/-- If every ascending order verifies, no two neighbours share a millisecond: by
induction on the rows before them, whose readings already increase strictly. -/
theorem strict_of_all_valid (hinj : Function.Injective sha256)
    (hgenesis : ∀ text, sha256 text ≠ genesisHash) {log rows : List AuditLogEntry}
    (hrows : Ascending org log rows)
    (hvalid : ∀ rows, Ascending org log rows → (verify sha256 org rows).valid) :
    ∀ init rest, rows = init ++ rest →
      init.Pairwise fun a b => a.createdAt.ms < b.createdAt.ms := by
  intro init
  induction init using List.reverseRecOn with
  | nil => exact fun _ _ => .nil
  | append_singleton init b ih =>
    intro rest hsplit
    rw [List.append_assoc] at hsplit
    have hinit := ih ([b] ++ rest) hsplit
    refine List.pairwise_append.mpr ⟨hinit, List.pairwise_singleton _ _, ?_⟩
    rcases List.eq_nil_or_concat' init with rfl | ⟨before, a, rfl⟩
    · exact fun _ hx => absurd hx List.not_mem_nil
    rw [List.append_assoc] at hsplit
    have hsplit : rows = before ++ a :: b :: rest := hsplit
    subst hsplit
    have hle : a.createdAt.ms ≤ b.createdAt.ms :=
      (List.pairwise_cons.mp (List.pairwise_append.mp hrows.2).2.1).1 b List.mem_cons_self
    have hne : a.createdAt.ms ≠ b.createdAt.ms := by
      intro hab
      obtain ⟨hlinked, hsealed⟩ := verify_valid_iff.mp (hvalid _ hrows)
      obtain ⟨hlinked', -⟩ := verify_valid_iff.mp (hvalid _ (hrows.swap hab))
      have htip := hlinked.hash_eq_tip_of_swap hlinked'
      have ha := hsealed a (by simp)
      -- the hash of `a` would be the genesis value or the hash of an earlier millisecond
      rcases List.eq_nil_or_concat' before with rfl | ⟨before, x, rfl⟩
      · obtain ⟨text, htext⟩ := ha.exists_text
        exact hgenesis text (htext.symm.trans htip)
      · rw [chainTip_concat] at htip
        have hx := hsealed x (by simp)
        have hlt := (List.pairwise_append.mp hinit).2.2 x (by simp) a List.mem_cons_self
        have heq := congrArg HashableEntry.createdAt (ha.binds hinj hx htip).2.2.1
        rw [show a.createdAt = x.createdAt from heq] at hlt
        exact lt_irrefl _ hlt
    intro x hx y hy
    rw [List.mem_singleton.mp hy]
    have hlt := lt_of_le_of_ne hle hne
    rcases List.mem_append.mp hx with hx | hx
    · exact ((List.pairwise_append.mp hinit).2.2 x hx a List.mem_cons_self).trans hlt
    · rw [List.mem_singleton.mp hx]
      exact hlt

/-! ## The verdict -/

/-- **When a recorded chain verifies.** With clock readings that never go back for
an organization, its chain verifies, whatever order the database gives to rows of
one millisecond, if its readings strictly increase; and, SHA-256 being injective
and never the genesis value, only then. -/
theorem verify_valid_iff_strict (sha256 : List Char → JsString) (jsonb : JsonData → JsonData)
    (hjsonb : ∀ d : JsonData, d.value.Same (jsonb d).value) (org : JsString) (calls : List RecordCall)
    (hclock : (readings org calls).Pairwise (· ≤ ·)) :
    ((readings org calls).Pairwise (· < ·) →
      ∀ rows, Ascending org (recordAll sha256 jsonb calls) rows →
        (verify sha256 org rows).valid) ∧
    (Function.Injective sha256 → (∀ text, sha256 text ≠ genesisHash) →
      ((∀ rows, Ascending org (recordAll sha256 jsonb calls) rows →
          (verify sha256 org rows).valid) ↔
        (readings org calls).Pairwise (· < ·))) := by
  have hif : (readings org calls).Pairwise (· < ·) →
      ∀ rows, Ascending org (recordAll sha256 jsonb calls) rows →
        (verify sha256 org rows).valid := by
    intro hstrict rows hrows
    rw [hrows.eq_of_strict ((strict_rowsOf_iff calls).mpr hstrict), verify_valid_iff]
    exact ⟨linked_of_strict calls hstrict, sealed_of_mem_rowsOf hjsonb calls⟩
  refine ⟨hif, fun hinj hgenesis => ⟨fun hvalid => ?_, hif⟩⟩
  have hascending : Ascending org (recordAll sha256 jsonb calls)
      (rowsOf org (recordAll sha256 jsonb calls)) := by
    refine ⟨.refl _, ?_⟩
    rw [← @map_createdAt_rowsOf sha256 jsonb org calls, List.pairwise_map] at hclock
    exact hclock
  rw [← @strict_rowsOf_iff sha256 jsonb org calls]
  exact strict_of_all_valid hinj hgenesis hascending hvalid _ [] (List.append_nil _).symm

/-- A creation and a submission one millisecond later. -/
theorem verify_valid_iff_strict_sample :
    (readings (js "org-1") [Sample.creation, Sample.submission 1]).Pairwise (· < ·) ∧
      ∀ rows, Ascending (js "org-1")
          (recordAll Sample.sha256 id [Sample.creation, Sample.submission 1]) rows →
        (verify Sample.sha256 (js "org-1") rows).valid := by
  have hstrict : (readings (js "org-1") [Sample.creation, Sample.submission 1]).Pairwise
      (· < ·) := by
    decide +kernel
  have hverdict := verify_valid_iff_strict Sample.sha256 id (fun d => .refl d.value) (js "org-1")
    [Sample.creation, Sample.submission 1] (hstrict.imp le_of_lt)
  exact ⟨hstrict,
    (hverdict.2 Sample.sha256_injective Sample.sha256_ne_genesisHash).mpr hstrict⟩

/-- A creation and a submission in one millisecond, returned the other way round: no
row was altered, and the verifier reports a broken link. -/
theorem one_millisecond_fails :
    ∃ rows, Ascending (js "org-1")
        (recordAll Sample.sha256 id [Sample.creation, Sample.submission 0]) rows ∧
      (readings (js "org-1") [Sample.creation, Sample.submission 0]).Pairwise (· ≤ ·) ∧
      verify Sample.sha256 (js "org-1") rows =
        ⟨js "org-1", 2, false, some (js "ExpenseSubmitted"), some .linkage, caveat⟩ := by
  refine ⟨(rowsOf (js "org-1") (recordAll Sample.sha256 id
    [Sample.creation, Sample.submission 0])).reverse, ⟨List.reverse_perm _, ?_⟩, ?_, ?_⟩
  · decide +kernel
  · decide +kernel
  · decide +kernel

end RatelPlatform
