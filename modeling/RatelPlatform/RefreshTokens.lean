import Mathlib.Logic.Function.Basic
import RatelPlatform.Reach
import RatelPlatform.SharedKernel
import RatelPlatform.Table

/-!
# One refresh token, one exchange

A refresh token is exchanged for a fresh one by three statements outside a
transaction: find the row and check it, revoke it, create the successor. Logging out
revokes it as well. Any number of such calls present the same token, and the
statements of one fall between those of the others.

The revoking update does not ask again whether the token is still valid, so two
exchanges that both found it valid both succeed. As long as every exchange revokes a
token that is still unrevoked, it is used once (`single_use`).

A token is known by its hash, which is all that is stored of it. The histories
`writes` and `successors` are read by nothing.
-/

namespace RatelPlatform

/-- The SHA-256 of a token. Only equality matters. -/
abbrev TokenHash := ℕ

/-- A row of `refresh_tokens`, apart from its hash. -/
structure RefreshToken where
  userId : Id
  /-- in milliseconds -/
  expiresAt : ℤ
  revokedAt : Option JsDate
  deriving DecidableEq

/-- The row is one that may be exchanged. -/
def RefreshToken.IsValid (row : RefreshToken) (now : JsDate) : Prop :=
  row.revokedAt = none ∧ ¬ row.expiresAt < now.ms

instance (row : RefreshToken) (now : JsDate) : Decidable (row.IsValid now) :=
  inferInstanceAs (Decidable (_ ∧ _))

/-- Where a call stands that presents the token. -/
inductive TokenCall
  | idle
  /-- `validateAndRotate`: about to find the row -/
  | finding
  /-- it found the row valid: about to revoke it -/
  | rotating (userId : Id)
  /-- it revoked the row: about to create the successor -/
  | issuing (userId : Id)
  /-- it returned the successor -/
  | rotated (userId : Id) (newToken : TokenHash)
  /-- it returned `null` -/
  | refused
  /-- `revoke`: about to revoke the row -/
  | revoking
  | revoked
  /-- a statement failed, or the process died -/
  | failed

/-- A committed revoking write. -/
inductive TokenWrite
  | exchanged (i : ℕ)
  | revoked (i : ℕ)
  deriving DecidableEq

/-- The table of tokens, with the calls that present the token. -/
structure TokenSystem where
  refreshTokens : Table TokenHash RefreshToken
  calls : ℕ → TokenCall
  /-- the revoking writes, oldest first -/
  writes : List TokenWrite
  /-- the tokens issued in exchange for the presented one -/
  successors : List TokenHash

/-- A step of the system. -/
inductive TokenLabel
  /-- `validateAndRotate` is called -/
  | validateAndRotate (i : ℕ)
  /-- `revoke` is called -/
  | revoke (i : ℕ)
  /-- the next statement of a call, with the token it would draw -/
  | proceed (i : ℕ) (now : JsDate) (newToken : TokenHash)
  /-- the next statement of a call fails, or its process dies -/
  | fail (i : ℕ)
  /-- calls that present other tokens -/
  | others (refreshTokens : Table TokenHash RefreshToken)

namespace TokenSystem

/-- Nobody has presented the token yet. -/
def initial (refreshTokens : Table TokenHash RefreshToken) : TokenSystem where
  refreshTokens := refreshTokens
  calls := fun _ => .idle
  writes := []
  successors := []

/-- Call `i` goes on to a place. -/
def goto (σ : TokenSystem) (i : ℕ) (call : TokenCall) : TokenSystem :=
  { σ with calls := Function.update σ.calls i call }

variable (presented : TokenHash) (ttlMs : ℤ)

/-- `update`: revokes the row, whatever it says. -/
def exchange (σ : TokenSystem) (i : ℕ) (row : RefreshToken) (now : JsDate) : TokenSystem :=
  { σ with
    refreshTokens := σ.refreshTokens.insert presented { row with revokedAt := some now }
    writes := σ.writes ++ [.exchanged i] }

/-- `issue`: stores a fresh token. -/
def issue (σ : TokenSystem) (userId : Id) (newToken : TokenHash) (now : JsDate) : TokenSystem :=
  { σ with
    refreshTokens := σ.refreshTokens.insert newToken ⟨userId, now.ms + ttlMs, none⟩
    successors := σ.successors ++ [newToken] }

/-- `updateMany … where: { tokenHash, revokedAt: null }` -/
def revokeUnrevoked (σ : TokenSystem) (i : ℕ) (now : JsDate) : TokenSystem :=
  { σ with
    refreshTokens := σ.refreshTokens.update presented fun row =>
      if row.revokedAt = none then { row with revokedAt := some now } else row
    writes := σ.writes ++ [.revoked i] }

/-- The next statement of a call. -/
def callStep (σ : TokenSystem) (i : ℕ) (now : JsDate) (newToken : TokenHash) : Option TokenSystem :=
  match σ.calls i with
  | .finding =>
    match σ.refreshTokens.lookup presented with
    | none => some (σ.goto i .refused)
    | some row => some (σ.goto i (if row.IsValid now then .rotating row.userId else .refused))
  | .rotating userId =>
    match σ.refreshTokens.lookup presented with
    -- the row to update is gone
    | none => some (σ.goto i .failed)
    | some row => some ((σ.exchange presented i row now).goto i (.issuing userId))
  | .issuing userId =>
    match σ.refreshTokens.lookup newToken with
    -- the hash is unique
    | some _ => some (σ.goto i .failed)
    | none => some ((σ.issue ttlMs userId newToken now).goto i (.rotated userId newToken))
  | .revoking => some ((σ.revokeUnrevoked presented i now).goto i .revoked)
  | _ => none

/-- One step. -/
def next (σ : TokenSystem) : TokenLabel → Option TokenSystem
  | .validateAndRotate i =>
    match σ.calls i with
    | .idle => some (σ.goto i .finding)
    | _ => none
  | .revoke i =>
    match σ.calls i with
    | .idle => some (σ.goto i .revoking)
    | _ => none
  | .proceed i now newToken => callStep presented ttlMs σ i now newToken
  | .fail i =>
    match σ.calls i with
    | .finding | .rotating _ | .issuing _ | .revoking => some (σ.goto i .failed)
    | _ => none
  | .others refreshTokens =>
    if refreshTokens.lookup presented = σ.refreshTokens.lookup presented then
      some { σ with refreshTokens }
    else none

/-! ## What a step can do -/

/-- The steps, by name. -/
inductive Step (σ : TokenSystem) : TokenLabel → TokenSystem → Prop
  /-- a step that writes nothing, and neither finds the row valid nor succeeds -/
  | idle {l : TokenLabel} {i : ℕ} {call : TokenCall}
    (hcall : call = .finding ∨ call = .refused ∨ call = .revoking ∨ call = .failed) :
    Step σ l (σ.goto i call)
  | find {i : ℕ} {now : JsDate} {newToken : TokenHash} {row : RefreshToken}
    (hrow : σ.refreshTokens.lookup presented = some row) :
    Step σ (.proceed i now newToken) (σ.goto i (.rotating row.userId))
  | exchange {i : ℕ} {now : JsDate} {newToken : TokenHash} {userId : Id} {row : RefreshToken}
    (hcall : σ.calls i = .rotating userId) (hrow : σ.refreshTokens.lookup presented = some row) :
    Step σ (.proceed i now newToken) ((σ.exchange presented i row now).goto i (.issuing userId))
  | issue {i : ℕ} {now : JsDate} {newToken : TokenHash} {userId : Id}
    (hcall : σ.calls i = .issuing userId) (hnew : σ.refreshTokens.lookup newToken = none) :
    Step σ (.proceed i now newToken)
      ((σ.issue ttlMs userId newToken now).goto i (.rotated userId newToken))
  | revoke {i : ℕ} {now : JsDate} {newToken : TokenHash} (hcall : σ.calls i = .revoking) :
    Step σ (.proceed i now newToken) ((σ.revokeUnrevoked presented i now).goto i .revoked)
  | others {refreshTokens : Table TokenHash RefreshToken}
    (hsame : refreshTokens.lookup presented = σ.refreshTokens.lookup presented) :
    Step σ (.others refreshTokens) { σ with refreshTokens }

variable {presented ttlMs} {σ τ : TokenSystem} {l : TokenLabel} {i j : ℕ}

/-- There are no other steps. -/
theorem step_of_next (hn : next presented ttlMs σ l = some τ) : Step presented ttlMs σ l τ := by
  cases l with
  | validateAndRotate i =>
    simp only [next] at hn
    split at hn
    · cases hn
      exact .idle (.inl rfl)
    · cases hn
  | revoke i =>
    simp only [next] at hn
    split at hn
    · cases hn
      exact .idle (.inr (.inr (.inl rfl)))
    · cases hn
  | proceed i now newToken =>
    simp only [next, callStep] at hn
    split at hn
    · split at hn
      · cases hn
        exact .idle (.inr (.inl rfl))
      · next row hrow =>
        cases hn
        split_ifs
        · exact .find hrow
        · exact .idle (.inr (.inl rfl))
    · next userId hcall =>
      split at hn
      · cases hn
        exact .idle (.inr (.inr (.inr rfl)))
      · next row hrow =>
        cases hn
        exact .exchange hcall hrow
    · next userId hcall =>
      split at hn
      · cases hn
        exact .idle (.inr (.inr (.inr rfl)))
      · next hnew =>
        cases hn
        exact .issue hcall hnew
    · next hcall =>
      cases hn
      exact .revoke hcall
    · cases hn
  | fail i =>
    simp only [next] at hn
    split at hn
    · cases hn
      exact .idle (.inr (.inr (.inr rfl)))
    · cases hn
      exact .idle (.inr (.inr (.inr rfl)))
    · cases hn
      exact .idle (.inr (.inr (.inr rfl)))
    · cases hn
      exact .idle (.inr (.inr (.inr rfl)))
    · cases hn
  | others refreshTokens =>
    simp only [next] at hn
    split_ifs at hn with hsame
    cases hn
    exact .others hsame

/-! ## Single use -/

/-- At most one exchange has succeeded, none of them after a logout, and at most one
successor was issued. -/
structure SingleUse (σ : TokenSystem) : Prop where
  once : ∀ i j u v s t, σ.calls i = .rotated u s → σ.calls j = .rotated v t → i = j
  wrote : ∀ i u t, σ.calls i = .rotated u t → .exchanged i ∈ σ.writes
  notAfterRevoke : ∀ i u t before after, σ.calls i = .rotated u t →
    σ.writes = before ++ .exchanged i :: after → ∀ j, .revoked j ∉ before
  oneSuccessor : σ.successors.length ≤ 1

/-- **The condition**: an exchange that is about to revoke the row finds it still
unrevoked. -/
def WritesUnrevoked (presented : TokenHash) (σ : TokenSystem) (l : TokenLabel) : Prop :=
  ∀ i now t u, l = .proceed i now t → σ.calls i = .rotating u →
    ∀ row ∈ σ.refreshTokens.lookup presented, row.revokedAt = none

/-- What such runs keep. -/
structure Unspent (presented : TokenHash) (σ : TokenSystem) : Prop where
  /-- an unrevoked row was never written -/
  unwritten : ∀ row, σ.refreshTokens.lookup presented = some row → row.revokedAt = none →
    σ.writes = []
  /-- an exchange writes first or not at all -/
  first : ∀ i, .exchanged i ∉ σ.writes.tail
  rotating : ∀ i u, σ.calls i = .rotating u → (σ.refreshTokens.lookup presented).isSome
  issuing : ∀ i u, σ.calls i = .issuing u →
    (σ.refreshTokens.lookup presented).isSome ∧ .exchanged i ∈ σ.writes ∧ σ.successors = []
  rotated : ∀ i u t, σ.calls i = .rotated u t → .exchanged i ∈ σ.writes
  unissued : σ.writes = [] → σ.successors = []
  oneSuccessor : σ.successors.length ≤ 1

@[simp] theorem goto_calls (call : TokenCall) :
    (σ.goto i call).calls j = if j = i then call else σ.calls j :=
  Function.update_apply _ _ _ _

namespace Unspent

variable {now : JsDate} {newToken : TokenHash} {userId : Id} {row : RefreshToken}

theorem initial (tokens : Table TokenHash RefreshToken) :
    (TokenSystem.initial tokens).Unspent presented where
  unwritten := fun _ _ _ => rfl
  first := fun _ => List.not_mem_nil
  rotating := fun _ _ h => by cases h
  issuing := fun _ _ h => by cases h
  rotated := fun _ _ _ h => by cases h
  unissued := fun _ => rfl
  oneSuccessor := Nat.zero_le _

/-- Two exchanges that both wrote are one. -/
theorem exchanged_unique (h : σ.Unspent presented) (hi : .exchanged i ∈ σ.writes)
    (hj : .exchanged j ∈ σ.writes) : i = j := by
  have hfirst := h.first
  rcases hwrites : σ.writes with _ | ⟨w, ws⟩ <;> rw [hwrites] at hi hj hfirst
  · cases hi
  · have head : ∀ {k}, .exchanged k ∈ w :: ws → TokenWrite.exchanged k = w := by
      intro k hk
      rcases List.mem_cons.mp hk with hk | hk
      · exact hk
      · exact absurd hk (hfirst k)
    exact TokenWrite.exchanged.inj ((head hi).trans (head hj).symm)

theorem goto_idle (h : σ.Unspent presented) {call : TokenCall}
    (hcall : call = .finding ∨ call = .refused ∨ call = .revoking ∨ call = .failed) :
    (σ.goto i call).Unspent presented where
  unwritten := h.unwritten
  first := h.first
  rotating := by
    intro j u hj
    rw [goto_calls] at hj
    split_ifs at hj
    · subst hj
      simp at hcall
    · exact h.rotating j u hj
  issuing := by
    intro j u hj
    rw [goto_calls] at hj
    split_ifs at hj
    · subst hj
      simp at hcall
    · exact h.issuing j u hj
  rotated := by
    intro j u t hj
    rw [goto_calls] at hj
    split_ifs at hj
    · subst hj
      simp at hcall
    · exact h.rotated j u t hj
  unissued := h.unissued
  oneSuccessor := h.oneSuccessor

theorem find (h : σ.Unspent presented) (hrow : σ.refreshTokens.lookup presented = some row) :
    (σ.goto i (.rotating row.userId)).Unspent presented where
  unwritten := h.unwritten
  first := h.first
  rotating := fun _ _ _ => Option.isSome_of_mem hrow
  issuing := by
    intro j u hj
    rw [goto_calls] at hj
    split_ifs at hj
    exact h.issuing j u hj
  rotated := by
    intro j u t hj
    rw [goto_calls] at hj
    split_ifs at hj
    exact h.rotated j u t hj
  unissued := h.unissued
  oneSuccessor := h.oneSuccessor

/-- The exchange that writes is the first to write anything. -/
theorem exchange (h : σ.Unspent presented) (hrow : σ.refreshTokens.lookup presented = some row)
    (hunrevoked : row.revokedAt = none) :
    ((σ.exchange presented i row now).goto i (.issuing userId)).Unspent presented := by
  have hwrites : σ.writes = [] := h.unwritten row hrow hunrevoked
  have hlookup : (σ.exchange presented i row now).refreshTokens.lookup presented =
      some { row with revokedAt := some now } :=
    Finmap.lookup_insert _
  refine ⟨?_, ?_, ?_, ?_, ?_, ?_, h.oneSuccessor⟩
  · intro row' hrow' hunrevoked'
    cases hlookup.symm.trans hrow'
    cases hunrevoked'
  · intro j
    simp only [goto, TokenSystem.exchange, hwrites]
    exact List.not_mem_nil
  · exact fun _ _ _ => Option.isSome_of_mem hlookup
  · intro j u hj
    rw [goto_calls] at hj
    refine ⟨Option.isSome_of_mem hlookup, ?_, h.unissued hwrites⟩
    split_ifs at hj with hji
    · subst hji
      exact List.mem_append_right _ (List.mem_singleton_self _)
    · exact List.mem_append_left _ (h.issuing j u hj).2.1
  · intro j u t hj
    rw [goto_calls] at hj
    split_ifs at hj
    exact List.mem_append_left _ (h.rotated j u t hj)
  · intro hnil
    exact absurd hnil (List.concat_ne_nil _ _)

/-- Whoever issues is the only one to issue. -/
theorem issue (h : σ.Unspent presented) (hcall : σ.calls i = .issuing userId)
    (hnew : σ.refreshTokens.lookup newToken = none) :
    ((σ.issue ttlMs userId newToken now).goto i (.rotated userId newToken)).Unspent presented := by
  obtain ⟨hpresent, hwrote, hnone⟩ := h.issuing i userId hcall
  have hne : presented ≠ newToken := by
    rintro rfl
    rw [hnew] at hpresent
    cases hpresent
  have hlookup : (σ.issue ttlMs userId newToken now).refreshTokens.lookup presented =
      σ.refreshTokens.lookup presented :=
    Finmap.lookup_insert_of_ne _ hne
  refine ⟨?_, h.first, ?_, ?_, ?_, ?_, ?_⟩
  · intro row hrow
    exact h.unwritten row (hlookup.symm.trans hrow)
  · intro j u _
    exact (congrArg Option.isSome hlookup).trans hpresent
  · intro j u hj
    rw [goto_calls] at hj
    split_ifs at hj with hji
    exact absurd (h.exchanged_unique (h.issuing j u hj).2.1 hwrote) hji
  · intro j u t hj
    rw [goto_calls] at hj
    split_ifs at hj with hji
    · subst hji
      exact hwrote
    · exact h.rotated j u t hj
  · intro hnil
    rw [show σ.writes = [] from hnil] at hwrote
    cases hwrote
  · simp only [goto, TokenSystem.issue, hnone]
    exact Nat.le_refl 1

theorem revoke (h : σ.Unspent presented) :
    ((σ.revokeUnrevoked presented i now).goto i .revoked).Unspent presented := by
  have hlookup : (σ.revokeUnrevoked presented i now).refreshTokens.lookup presented =
      (σ.refreshTokens.lookup presented).map fun row =>
        if row.revokedAt = none then { row with revokedAt := some now } else row := by
    simp only [revokeUnrevoked, Table.lookup_update, if_pos]
  have hsome : ((σ.revokeUnrevoked presented i now).refreshTokens.lookup presented).isSome =
      (σ.refreshTokens.lookup presented).isSome := by
    rw [hlookup, Option.isSome_map]
  refine ⟨?_, ?_, ?_, ?_, ?_, ?_, h.oneSuccessor⟩
  · intro row hrow hunrevoked
    obtain ⟨row', -, rfl⟩ := Option.map_eq_some_iff.mp (hlookup.symm.trans hrow)
    split_ifs at hunrevoked with hnone
    exact absurd hunrevoked hnone
  · intro j hj
    have hfirst := h.first j
    simp only [goto, revokeUnrevoked] at hj
    rcases hwrites : σ.writes with _ | ⟨w, ws⟩ <;> rw [hwrites] at hj hfirst
    · cases hj
    · rcases List.mem_append.mp hj with hj | hj
      · exact hfirst hj
      · cases List.mem_singleton.mp hj
  · intro j u hj
    rw [goto_calls] at hj
    split_ifs at hj
    exact hsome.trans (h.rotating j u hj)
  · intro j u hj
    rw [goto_calls] at hj
    split_ifs at hj
    obtain ⟨hpresent, hwrote, hnone⟩ := h.issuing j u hj
    exact ⟨hsome.trans hpresent, List.mem_append_left _ hwrote, hnone⟩
  · intro j u t hj
    rw [goto_calls] at hj
    split_ifs at hj
    exact List.mem_append_left _ (h.rotated j u t hj)
  · intro hnil
    exact absurd hnil (List.concat_ne_nil _ _)

theorem others (h : σ.Unspent presented) {tokens : Table TokenHash RefreshToken}
    (hsame : tokens.lookup presented = σ.refreshTokens.lookup presented) :
    ({ σ with refreshTokens := tokens } : TokenSystem).Unspent presented where
  unwritten := fun row hrow => h.unwritten row (hsame.symm.trans hrow)
  first := h.first
  rotating := fun j u hj => (congrArg Option.isSome hsame).trans (h.rotating j u hj)
  issuing := by
    intro j u hj
    obtain ⟨hpresent, hrest⟩ := h.issuing j u hj
    exact ⟨(congrArg Option.isSome hsame).trans hpresent, hrest⟩
  rotated := h.rotated
  unissued := h.unissued
  oneSuccessor := h.oneSuccessor

/-- One step. -/
theorem next (h : σ.Unspent presented) (hok : σ.WritesUnrevoked presented l)
    (hn : TokenSystem.next presented ttlMs σ l = some τ) : τ.Unspent presented := by
  cases step_of_next hn with
  | idle hcall => exact h.goto_idle hcall
  | find hrow => exact h.find hrow
  | exchange hcall hrow => exact h.exchange hrow (hok _ _ _ _ rfl hcall _ hrow)
  | issue hcall hnew => exact h.issue hcall hnew
  | revoke _ => exact h.revoke
  | others hsame => exact h.others hsame

theorem singleUse (h : σ.Unspent presented) : σ.SingleUse where
  once := fun i j u v s t hi hj =>
    h.exchanged_unique (h.rotated i u s hi) (h.rotated j v t hj)
  wrote := h.rotated
  notAfterRevoke := by
    intro i u t before after _ hwrites j hj
    have hfirst := h.first i
    rcases before with _ | ⟨w, ws⟩
    · cases hj
    · rw [hwrites] at hfirst
      exact hfirst (List.mem_append_right _ List.mem_cons_self)
  oneSuccessor := h.oneSuccessor

end Unspent

/-- **Single use**: in every run in which no exchange revokes a row that is already
revoked, the token is exchanged once at most, and not after a logout. -/
theorem single_use (presented : TokenHash) (ttlMs : ℤ) (tokens : Table TokenHash RefreshToken)
    (ls : List TokenLabel) (σ : TokenSystem)
    (hr : Reaches (next presented ttlMs) (WritesUnrevoked presented) (initial tokens) ls σ) :
    σ.SingleUse := by
  have hunspent : σ.Unspent presented :=
    hr.invariant (P := Unspent presented) (Unspent.initial tokens)
      fun _ _ _ h hok hn => h.next hok hn
  exact hunspent.singleUse

end TokenSystem

namespace Sample

/-- User 3 has logged in. -/
def session : Table TokenHash RefreshToken :=
  (∅ : Table TokenHash RefreshToken).insert 7 ⟨3, 604800000, none⟩

/-- A second after the epoch. -/
def second : JsDate := ⟨1000, by decide⟩

/-- Two exchanges that both find the token valid. -/
def twoExchanges : List TokenLabel :=
  [.validateAndRotate 0, .validateAndRotate 1, .proceed 0 second 8, .proceed 1 second 9,
    .proceed 0 second 8, .proceed 1 second 9, .proceed 0 second 8, .proceed 1 second 9]

end Sample

open TokenSystem

/-- The token is exchanged, then presented again and refused. -/
theorem single_use_sample : ∃ ls σ, Reaches (next 7 604800000) (WritesUnrevoked 7)
    (initial Sample.session) ls σ ∧ σ.SingleUse ∧ σ.calls 0 = .rotated 3 8 ∧ σ.calls 1 = .refused := by
  have h₁ : Reaches (next 7 604800000) (WritesUnrevoked 7) (initial Sample.session)
      [.validateAndRotate 0] _ :=
    Reaches.nil.snoc (fun _ _ _ _ hl => by cases hl) rfl
  have h₂ := h₁.snoc (i := .proceed 0 Sample.second 8)
    (fun _ _ _ _ hl hcall => by cases hl; cases hcall) rfl
  have h₃ := h₂.snoc (i := .proceed 0 Sample.second 8)
    (fun _ _ _ _ hl _ row hrow => by cases hl; cases hrow; rfl) rfl
  have h₄ := h₃.snoc (i := .proceed 0 Sample.second 8)
    (fun _ _ _ _ hl hcall => by cases hl; cases hcall) rfl
  have h₅ := h₄.snoc (i := .validateAndRotate 1) (fun _ _ _ _ hl => by cases hl) rfl
  have h₆ := h₅.snoc (i := .proceed 1 Sample.second 9)
    (fun _ _ _ _ hl hcall => by cases hl; cases hcall) rfl
  exact ⟨_, _, h₆, single_use _ _ _ _ _ h₆, rfl, rfl⟩

/-- **Two successors of one token**: the second exchange revokes it once more. -/
theorem two_successors : ¬ ∀ (presented : TokenHash) (ttlMs : ℤ) (tokens : Table TokenHash RefreshToken)
    (ls : List TokenLabel) (σ : TokenSystem),
    Reaches (next presented ttlMs) (fun _ _ => True) (initial tokens) ls σ → σ.SingleUse := by
  intro hall
  obtain ⟨σ, hσ, h₀, h₁⟩ : ∃ σ, runLabels (next 7 604800000) (initial Sample.session)
      Sample.twoExchanges = some σ ∧ σ.calls 0 = .rotated 3 8 ∧ σ.calls 1 = .rotated 3 9 :=
    ⟨_, rfl, rfl, rfl⟩
  have hsingle := hall _ _ _ _ _ (reaches_of_runLabels hσ)
  exact Nat.zero_ne_one (hsingle.once 0 1 3 3 8 9 h₀ h₁)

end RatelPlatform
