import RatelPlatform.IdempotencyStore

/-!
# What the lock protects

A claim that expires while its request is still at work can be made again by another
request. Then two handlers run under one key, and the first to write does not know
that the claim it overwrites or deletes is not its own.

As long as no request claims a key that another one is still at work under, neither
happens: every write of a request finds its own claim or nothing. A time to live that is not
shorter than the work is enough for that (`reaches_claimsAlone`).
-/

namespace RatelPlatform

namespace IdempotencyStore

variable (request : ℕ → KeyedRequest)

/-- The event starts the handler of a request while another one runs under its key,
or while a response stored under it has time left. -/
def StartsAgain (σ : IdempotencyStore) (l : StoreEvent) : Prop :=
  ∃ i, l = .claim i ∧ σ.phase i = .arrived ∧ σ.redis.lookup (key request i) = none ∧
    ∃ j, j ≠ i ∧ key request j = key request i ∧ (σ.phase j = .executing ∨ j ∈ σ.unexpired)

/-- The event overwrites or deletes what was written for another request. -/
def Tramples (σ : IdempotencyStore) (l : StoreEvent) : Prop :=
  ∃ i e, l = .land i ∧ ((∃ r, σ.phase i = .completing r) ∨ σ.phase i = .releasing) ∧
    σ.redis.lookup (key request i) = some e ∧ e.writer ≠ i

/-- The event breaks what the lock is for. -/
def Violates (σ : IdempotencyStore) (l : StoreEvent) : Prop :=
  σ.StartsAgain request l ∨ σ.Tramples request l

/-- A key that is claimed is not one that another request is at work under. -/
def ClaimsAlone (σ : IdempotencyStore) (l : StoreEvent) : Prop :=
  ∀ i, l = .claim i → σ.phase i = .arrived → σ.redis.lookup (key request i) = none →
    ∀ j, j ≠ i → key request j = key request i → (σ.phase j).isActive = false

/-! ## The invariant -/

/-- Who is at work under a key is alone, and what is stored under it is theirs. -/
structure Exclusive (σ : IdempotencyStore) : Prop where
  /-- one at a time -/
  alone : ∀ i j, (σ.phase i).isActive = true → (σ.phase j).isActive = true →
    key request i = key request j → i = j
  /-- an entry is of the request at work -/
  owner : ∀ i e, (σ.phase i).isActive = true → σ.redis.lookup (key request i) = some e →
    e.writer = i
  /-- a response with time left is stored -/
  stored : ∀ j ∈ σ.unexpired, ∃ r, σ.redis.lookup (key request j) = some ⟨.response r, j⟩
  /-- and its request is done -/
  finished : ∀ j ∈ σ.unexpired, σ.phase j = .finished

variable {request} {σ τ : IdempotencyStore} {l : StoreEvent} {i j : ℕ}

theorem exclusive_initial : initial.Exclusive request where
  alone := fun _ _ h => nomatch h
  owner := fun _ _ h => nomatch h
  stored := fun _ h => absurd h (Finset.notMem_empty _)
  finished := fun _ h => absurd h (Finset.notMem_empty _)

/-- A request that was at work may go on in any way, the store left alone. -/
theorem Exclusive.goto (h : σ.Exclusive request) {phase : RequestPhase}
    (hactive : phase.isActive = true → (σ.phase i).isActive = true)
    (hfinished : i ∈ σ.unexpired → phase = .finished) : (σ.goto i phase).Exclusive request := by
  have hbefore : ∀ j, ((σ.goto i phase).phase j).isActive = true → (σ.phase j).isActive = true := by
    intro j hj
    rw [goto_phase] at hj
    split_ifs at hj with hji
    · rw [hji]
      exact hactive hj
    · exact hj
  refine ⟨fun a b ha hb => h.alone a b (hbefore a ha) (hbefore b hb), fun a e ha =>
    h.owner a e (hbefore a ha), h.stored, fun j hj => ?_⟩
  rw [goto_phase]
  split_ifs with hji
  · exact hfinished (hji ▸ hj)
  · exact h.finished j hj

/-- A phase that is not the last keeps a request out of the stored responses. -/
theorem Exclusive.not_unexpired (h : σ.Exclusive request) (hphase : σ.phase i ≠ .finished) :
    i ∉ σ.unexpired := fun hmem => hphase (h.finished i hmem)

/-- Nothing is stored under the key of another request at work. -/
theorem Exclusive.unexpired_ne (h : σ.Exclusive request) (hactive : (σ.phase i).isActive = true)
    (hmem : j ∈ σ.unexpired) : key request j ≠ key request i := by
  intro hkey
  obtain ⟨r, hr⟩ := h.stored j hmem
  rw [hkey] at hr
  obtain rfl : j = i := h.owner i _ hactive hr
  rw [h.finished j hmem] at hactive
  cases hactive

/-- A key that is claimed while nobody else is at work under it. -/
theorem Exclusive.claim (h : σ.Exclusive request) (hphase : σ.phase i = .arrived)
    (hfree : σ.redis.lookup (key request i) = none)
    (hothers : ∀ j, j ≠ i → key request j = key request i → (σ.phase j).isActive = false) :
    IdempotencyStore.Exclusive request { σ.goto i .executing with
      redis := σ.redis.insert (key request i) ⟨.inProgress, i⟩ } := by
  have hnew : ∀ j, ((σ.goto i .executing).phase j).isActive = true →
      key request j = key request i → j = i := by
    intro j hj hkey
    by_contra hji
    rw [goto_phase, if_neg hji, hothers j hji hkey] at hj
    cases hj
  have hsame : ∀ j, j ≠ i → (σ.goto i .executing).phase j = σ.phase j := fun j hji => by
    rw [goto_phase, if_neg hji]
  refine ⟨fun a b ha hb hkey => ?_, fun a e ha he => ?_, fun j hj => ?_, fun j hj => ?_⟩
  · by_cases hai : a = i
    · exact hai.trans (hnew b hb (by rw [← hkey, hai])).symm
    · by_cases hbi : b = i
      · exact (hnew a ha (by rw [hkey, hbi])).trans hbi.symm
      · rw [hsame a hai] at ha
        rw [hsame b hbi] at hb
        exact h.alone a b ha hb hkey
  · obtain ⟨hkey, rfl⟩ | ⟨hkey, he⟩ := Table.lookup_insert_cases he
    · rw [hnew a ha hkey]
    · by_cases hai : a = i
      · exact absurd (by rw [hai]) hkey
      · rw [hsame a hai] at ha
        exact h.owner a e ha he
  · obtain ⟨r, hr⟩ := h.stored j hj
    have hne : key request j ≠ key request i := by
      intro hkey
      rw [hkey] at hr
      cases hfree.symm.trans hr
    exact ⟨r, by rw [Table.lookup_insert_ite, if_neg hne]; exact hr⟩
  · have hji : j ≠ i := by
      rintro rfl
      cases hphase.symm.trans (h.finished j hj)
    rw [hsame j hji]
    exact h.finished j hj

/-- A request at work that stores its response and is done. -/
theorem Exclusive.complete {r : CachedResponse} (h : σ.Exclusive request)
    (hactive : (σ.phase i).isActive = true) :
    IdempotencyStore.Exclusive request { σ.goto i .finished with
      redis := σ.redis.insert (key request i) ⟨.response r, i⟩
      unexpired := insert i σ.unexpired } := by
  have hrest : (σ.goto i .finished).Exclusive request := h.goto nofun fun _ => rfl
  refine ⟨hrest.alone, fun a e ha he => ?_, fun j hj => ?_, fun j hj => ?_⟩
  · obtain ⟨hkey, rfl⟩ | ⟨-, he⟩ := Table.lookup_insert_cases he
    · -- nobody else is at work under the key
      have hai : a ≠ i := by
        rintro rfl
        rw [goto_phase, if_pos rfl] at ha
        cases ha
      rw [goto_phase, if_neg hai] at ha
      exact absurd (h.alone a i ha hactive hkey) hai
    · exact hrest.owner a e ha he
  · rcases Finset.mem_insert.mp hj with rfl | hj
    · exact ⟨r, Finmap.lookup_insert _⟩
    · obtain ⟨r', hr'⟩ := h.stored j hj
      refine ⟨r', ?_⟩
      rw [Table.lookup_insert_ite, if_neg (h.unexpired_ne hactive hj)]
      exact hr'
  · rcases Finset.mem_insert.mp hj with rfl | hj
    · rw [goto_phase, if_pos rfl]
    · exact hrest.finished j hj

/-- An entry that goes, with the time that was left of it. -/
theorem Exclusive.erase {k : JsString} {unexpired : Finset ℕ} (h : σ.Exclusive request)
    (hsub : unexpired ⊆ σ.unexpired) (hne : ∀ j ∈ unexpired, key request j ≠ k) :
    IdempotencyStore.Exclusive request { σ with redis := σ.redis.erase k, unexpired } := by
  refine ⟨h.alone, fun a e ha he => ?_, fun j hj => ?_, fun j hj => h.finished j (hsub hj)⟩
  · rw [Table.lookup_erase_ite] at he
    split_ifs at he
    exact h.owner a e ha he
  · obtain ⟨r, hr⟩ := h.stored j (hsub hj)
    refine ⟨r, ?_⟩
    rw [Table.lookup_erase_ite, if_neg (hne j hj)]
    exact hr

/-- **Every step keeps the invariant**, if claims are made alone. -/
theorem Exclusive.next (h : σ.Exclusive request) (halone : σ.ClaimsAlone request l)
    (hn : next request σ l = some τ) : τ.Exclusive request := by
  cases step_of_next hn with
  | @claimed i hphase hfree => exact h.claim hphase hfree (halone i rfl hphase hfree)
  | @taken i e hphase htaken =>
    exact h.goto nofun fun hmem => absurd hmem (h.not_unexpired (by rw [hphase]; nofun))
  | @settle i body hphase =>
    refine h.goto (fun _ => by rw [hphase]; rfl) fun hmem => ?_
    exact absurd hmem (h.not_unexpired (by rw [hphase]; nofun))
  | @complete i r hphase => exact h.complete (by rw [hphase]; rfl)
  | @release i hphase =>
    have hactive : (σ.phase i).isActive = true := by rw [hphase]; rfl
    have hrest : (σ.goto i .finished).Exclusive request := h.goto nofun fun _ => rfl
    exact hrest.erase (Finset.Subset.refl _) fun j hj => h.unexpired_ne hactive hj
  | @read i hphase =>
    refine h.goto (fun hactive => ?_) fun hmem => ?_
    · rw [isActive_answer] at hactive
      cases hactive
    · exact absurd hmem (h.not_unexpired (by rw [hphase]; nofun))
  | stop i => exact h.goto nofun fun _ => rfl
  | @expire k e hstored =>
    refine h.erase (fun j hj => (mem_expired hj).1) fun j hj hkey => ?_
    obtain ⟨hmem, hother⟩ := mem_expired hj
    obtain ⟨r, hr⟩ := h.stored j hmem
    rw [hkey] at hr
    exact hother r (Option.some.inj (hstored.symm.trans hr))
  | lapse _ =>
    refine ⟨h.alone, h.owner, fun j hj => ?_, fun j hj => ?_⟩
    · exact h.stored j (Finset.mem_of_mem_erase hj)
    · exact h.finished j (Finset.mem_of_mem_erase hj)

/-- Where the invariant holds, a claim that is made alone breaks nothing. -/
theorem Exclusive.not_violates (h : σ.Exclusive request) (halone : σ.ClaimsAlone request l) :
    ¬ σ.Violates request l := by
  rintro (⟨i, rfl, hphase, hfree, j, hne, hkey, hrunning | hstored⟩ |
    ⟨i, e, rfl, hphase, hlookup, hother⟩)
  · have hidle := halone i rfl hphase hfree j hne hkey
    rw [hrunning] at hidle
    cases hidle
  · obtain ⟨r, hr⟩ := h.stored j hstored
    rw [hkey] at hr
    cases hfree.symm.trans hr
  · have hactive : (σ.phase i).isActive = true := by
      rcases hphase with ⟨r, hphase⟩ | hphase
      · rw [hphase]
        rfl
      · rw [hphase]
        rfl
    exact hother (h.owner i e hactive hlookup)

/-! ## The result -/

/-- **The lock holds** in every run in which no key is claimed that another request
is still at work under. -/
theorem lock_holds {ls : List StoreEvent}
    (hr : Reaches (next request) (ClaimsAlone request) initial ls σ) :
    ¬ Happened (next request) initial ls fun σ l _ => σ.Violates request l := by
  have hinv : σ.Exclusive request ∧
      ¬ Happened (next request) initial ls fun σ l _ => σ.Violates request l := by
    refine hr.invariant_along (P := fun ls σ => σ.Exclusive request ∧
      ¬ Happened (next request) initial ls fun σ l _ => σ.Violates request l) ?_ ?_
    · exact ⟨exclusive_initial, not_happened_nil⟩
    · rintro ls σ l τ hr ⟨hexclusive, hnot⟩ halone hn
      refine ⟨hexclusive.next halone hn, ?_⟩
      rw [happened_snoc_iff hr hn]
      exact not_or.mpr ⟨hnot, hexclusive.not_violates halone⟩
  exact hinv.2

/-! ## The time of a claim -/

/-- The time to live is not shorter than the work: what runs out is not the entry of a request
that is still at work. -/
def OutlivesWork (σ : IdempotencyStore) (l : StoreEvent) : Prop :=
  ∀ k e, l = .expire k → σ.redis.lookup k = some e → (σ.phase e.writer).isActive = false

variable (request) in
/-- Every request at work holds its key. -/
def HoldsKeys (σ : IdempotencyStore) : Prop :=
  ∀ i, (σ.phase i).isActive = true → ∃ e, σ.redis.lookup (key request i) = some e ∧ e.writer = i

/-- Two requests at work have two keys. -/
theorem HoldsKeys.key_ne (h : σ.HoldsKeys request) (hi : (σ.phase i).isActive = true)
    (hj : (σ.phase j).isActive = true) (hne : j ≠ i) : key request j ≠ key request i := by
  intro hkey
  obtain ⟨e, he, hwriter⟩ := h i hi
  obtain ⟨e', he', hwriter'⟩ := h j hj
  rw [hkey] at he'
  obtain rfl := Option.some.inj (he.symm.trans he')
  exact hne (hwriter'.symm.trans hwriter)

/-- A request goes on, and leaves the keys of the others alone. -/
theorem HoldsKeys.goto (h : σ.HoldsKeys request) {phase : RequestPhase}
    {redis : Table JsString RedisEntry} {unexpired : Finset ℕ}
    (hown : phase.isActive = true → ∃ e, redis.lookup (key request i) = some e ∧ e.writer = i)
    (hothers : ∀ j, j ≠ i → (σ.phase j).isActive = true →
      redis.lookup (key request j) = σ.redis.lookup (key request j)) :
    IdempotencyStore.HoldsKeys request { σ.goto i phase with redis, unexpired } := by
  intro j hj
  change ((σ.goto i phase).phase j).isActive = true at hj
  rw [goto_phase] at hj
  split_ifs at hj with hji
  · rw [hji]
    exact hown hj
  · obtain ⟨e, he, hwriter⟩ := h j hj
    exact ⟨e, (hothers j hji hj).trans he, hwriter⟩

/-- **Every step leaves the keys held**, if no claim runs out too soon. -/
theorem HoldsKeys.next (h : σ.HoldsKeys request) (houtlives : σ.OutlivesWork l)
    (hn : next request σ l = some τ) : τ.HoldsKeys request := by
  cases step_of_next hn with
  | @claimed i hphase hfree =>
    refine h.goto (fun _ => ⟨_, Finmap.lookup_insert _, rfl⟩) fun j _ hj => ?_
    have hkey : key request j ≠ key request i := by
      intro hkey
      obtain ⟨e, he, -⟩ := h j hj
      rw [hkey] at he
      cases hfree.symm.trans he
    rw [Table.lookup_insert_ite, if_neg hkey]
  | @taken i e hphase htaken => exact h.goto (fun hactive => by cases hactive) fun _ _ _ => rfl
  | @settle i body hphase =>
    exact h.goto (fun _ => h i (by rw [hphase]; rfl)) fun _ _ _ => rfl
  | @complete i r hphase =>
    have hactive : (σ.phase i).isActive = true := by rw [hphase]; rfl
    refine h.goto (fun hdone => by cases hdone) fun j hji hj => ?_
    rw [Table.lookup_insert_ite, if_neg (h.key_ne hactive hj hji)]
  | @release i hphase =>
    have hactive : (σ.phase i).isActive = true := by rw [hphase]; rfl
    refine h.goto (fun hdone => by cases hdone) fun j hji hj => ?_
    rw [Table.lookup_erase_ite, if_neg (h.key_ne hactive hj hji)]
  | @read i hphase =>
    refine h.goto (fun hactive => ?_) fun _ _ _ => rfl
    rw [isActive_answer] at hactive
    cases hactive
  | stop i => exact h.goto (fun hactive => by cases hactive) fun _ _ _ => rfl
  | @expire k e hstored =>
    intro j hj
    obtain ⟨e', he', hwriter⟩ := h j hj
    -- the entry that runs out is of nobody at work
    have hkey : key request j ≠ k := by
      intro hkey
      rw [hkey] at he'
      obtain rfl := Option.some.inj (hstored.symm.trans he')
      have hidle := houtlives k e rfl hstored
      rw [hwriter] at hidle
      cases hj.symm.trans hidle
    exact ⟨e', by rw [Table.lookup_erase_ite, if_neg hkey]; exact he', hwriter⟩
  | lapse _ => exact h

/-- Where every request at work holds its key, a free key is claimed alone. -/
theorem HoldsKeys.claimsAlone (h : σ.HoldsKeys request) (l : StoreEvent) :
    σ.ClaimsAlone request l := by
  intro i _ _ hfree j _ hkey
  by_contra hactive
  obtain ⟨e, he, -⟩ := h j (Bool.not_eq_false _ ▸ hactive)
  rw [hkey] at he
  cases hfree.symm.trans he

/-- **Claims that outlive the work are made alone**: in every run in which no entry of a request
at work runs out. -/
theorem reaches_claimsAlone {ls : List StoreEvent}
    (hr : Reaches (next request) OutlivesWork initial ls σ) :
    Reaches (next request) (ClaimsAlone request) initial ls σ := by
  have hheld : ∀ ls σ, Reaches (next request) OutlivesWork initial ls σ → σ.HoldsKeys request := by
    intro ls σ hr
    refine hr.invariant (P := HoldsKeys request) ?_ fun σ l τ h houtlives hn =>
      h.next houtlives hn
    intro i hactive
    cases hactive
  induction hr with
  | nil => exact .nil
  | @snoc ls σ τ l hr _ hn ih => exact ih.snoc ((hheld ls σ hr).claimsAlone l) hn

/-- A request that finds its key free. -/
theorem next_claim (hphase : σ.phase i = .arrived)
    (hfree : σ.redis.lookup (key request i) = none) :
    next request σ (.claim i) = some { σ.goto i .executing with
      redis := σ.redis.insert (key request i) ⟨.inProgress, i⟩ } := by
  simp only [next, hphase, hfree]

/-- **Why claims have to be made alone**: a claim under which another request is still
at work starts a second handler, or is trampled by the write the other is about to do. -/
theorem violates_of_overlap {i : ℕ} (hphase : σ.phase i = .arrived)
    (hfree : σ.redis.lookup (key request i) = none) (hne : j ≠ i)
    (hkey : key request j = key request i) (hactive : (σ.phase j).isActive = true) :
    σ.Violates request (.claim i) ∨
      ∃ τ, next request σ (.claim i) = some τ ∧ τ.Violates request (.land j) := by
  have hkept : (σ.goto i .executing).phase j = σ.phase j := by
    rw [goto_phase, if_neg hne]
  have htrampled : ((∃ r, σ.phase j = .completing r) ∨ σ.phase j = .releasing) →
      ∃ τ, next request σ (.claim i) = some τ ∧ τ.Violates request (.land j) := by
    intro hwriting
    refine ⟨_, next_claim hphase hfree, .inr ⟨j, ⟨.inProgress, i⟩, rfl, ?_, ?_, hne.symm⟩⟩
    · simp only [hkept]
      exact hwriting
    · rw [hkey]
      exact Finmap.lookup_insert _
  rcases hphase' : σ.phase j with _ | _ | r | _ | _ | _ | _ | _ <;> rw [hphase'] at hactive
  · cases hactive
  · exact .inl (.inl ⟨i, rfl, hphase, hfree, j, hne, hkey, .inl hphase'⟩)
  · exact .inr (htrampled (.inl ⟨r, hphase'⟩))
  · exact .inr (htrampled (.inr hphase'))
  · cases hactive
  · cases hactive
  · cases hactive
  · cases hactive

end IdempotencyStore

namespace Sample

/-- A user. -/
def userId : UserIdText := ⟨js "3f2c1b4a-0000-4000-8000-00000000000a", by decide, by decide⟩

/-- `ExpenseController.approve` -/
def approveHandler : HandlerName :=
  ⟨⟨js "ExpenseController", by decide⟩, ⟨js "approve", by decide⟩⟩

/-- The user approves the expense, with the key `k1`. -/
def approveExpense (expenseId : JsString) : KeyedRequest where
  method := .post
  handler := approveHandler
  user := some userId
  ip := js "10.0.0.7"
  params := [(js "id", expenseId)]
  header := some (.single (js "k1"))
  httpCode := none
  rawKey := js "k1"
  isMutating := HttpMethod.isMutating_post
  rawKey_pos := by decide
  rawKey_le := by decide

/-- The same request, sent again and again. -/
def retries : ℕ → KeyedRequest := fun _ => approveExpense (js "e1")

end Sample

open IdempotencyStore

/-- A request that finds its key taken. -/
theorem next_claim_taken {request : ℕ → KeyedRequest} {σ : IdempotencyStore} {i : ℕ} {e : RedisEntry}
    (hphase : σ.phase i = .arrived) (htaken : σ.redis.lookup (key request i) = some e) :
    next request σ (.claim i) = some (σ.goto i .refused) := by
  simp only [next, hphase, htaken]

/-- The time of an entry runs out. -/
theorem next_expire {request : ℕ → KeyedRequest} {σ : IdempotencyStore} {k : JsString} {e : RedisEntry}
    (hstored : σ.redis.lookup k = some e) : next request σ (.expire k) =
      some { σ with redis := σ.redis.erase k, unexpired := expired σ.unexpired e } := by
  simp only [next, hstored]

/-- The first request is executed and its response stored, before the second claims
the key. -/
theorem lock_holds_sample :
    ¬ Happened (next Sample.retries) initial [.claim 0, .settle 0 (some none), .land 0, .claim 1]
      fun σ l _ => σ.Violates Sample.retries l := by
  have h₁ : Reaches (next Sample.retries) (ClaimsAlone Sample.retries) initial [.claim 0] _ :=
    Reaches.nil.snoc (fun _ _ _ _ _ _ _ => rfl) (next_claim rfl (Finmap.lookup_empty _))
  have h₂ := (h₁.snoc (i := .settle 0 (some none)) (fun _ h => nomatch h) rfl).snoc
    (i := .land 0) (fun _ h => nomatch h) rfl
  have h₃ := h₂.snoc (i := .claim 1) ?_ (next_claim_taken rfl (Finmap.lookup_insert _))
  · exact lock_holds h₃
  · rintro _ ⟨⟩ - hfree
    cases (Finmap.lookup_insert _).symm.trans hfree

/-- **A claim that expires too soon**: the key is claimed again while the first handler
is running, and when that handler fails it deletes the second claim. -/
theorem second_handler_starts : ∃ ls σ, Reaches (next Sample.retries) (fun _ _ => True) initial ls σ ∧
    Happened (next Sample.retries) initial ls (fun σ l _ => σ.StartsAgain Sample.retries l) ∧
    Happened (next Sample.retries) initial ls (fun σ l _ => σ.Tramples Sample.retries l) := by
  have h₁ : Reaches (next Sample.retries) (fun _ _ => True) initial [.claim 0] _ :=
    Reaches.nil.snoc trivial (next_claim rfl (Finmap.lookup_empty _))
  have h₂ := h₁.snoc (i := .expire (key Sample.retries 0)) trivial
    (next_expire (Finmap.lookup_insert _))
  have h₃ := h₂.snoc (i := .claim 1) trivial (next_claim rfl (Finmap.lookup_erase _ _))
  have h₄ := h₃.snoc (i := .settle 0 none) trivial rfl
  have h₅ := h₄.snoc (i := .land 0) trivial rfl
  refine ⟨_, _, h₅, ⟨_, .claim 1, [.settle 0 none, .land 0], _, _, rfl, h₂,
    next_claim rfl (Finmap.lookup_erase _ _), ?_⟩, ⟨_, .land 0, [], _, _, rfl, h₄, rfl, ?_⟩⟩
  · exact ⟨1, rfl, rfl, Finmap.lookup_erase _ _, 0, by decide, rfl, .inl rfl⟩
  · exact ⟨0, ⟨.inProgress, 1⟩, rfl, .inr rfl, Finmap.lookup_insert _, by decide⟩

end RatelPlatform
