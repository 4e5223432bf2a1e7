import Opifex.RefreshTokens

/-!
# Rotation of refresh tokens

The lookup, the revocation and the issue of a rotation are three statements, and
none of them asks whether what the one before it saw still holds. Two refreshes of
one token may both find it live, and each issues a successor
(`TokenDesk.exchanged_twice`); a session that is ended between the revocation and the
issue is taken up again by the successor; and once a clean-up has deleted the row of
an exchanged token, its reuse is no longer seen.

`TokenDesk.singleUse_of_unraced` says that nothing else goes wrong: along every run
in which a rotation finds the row it is to revoke still unrevoked, is not overtaken
before it issues, and the rows of reused tokens are there, every token is exchanged
at most once, and reuse and logout end what they are to end.
-/

namespace Opifex

namespace TokenDesk

/-- The token was created, and there is no unrevoked row of it: it was revoked or
deleted. Since no statement takes a revocation back, it stays so. -/
def Spent (desk : TokenDesk) (token : ℕ) : Prop :=
  token < desk.table.next ∧ ¬ desk.Live token

/-- **The sessions of the user have ended**: none of its tokens is live, and no call is
to issue one, because whatever call holds a token of the user has been overtaken. -/
structure Closed (desk : TokenDesk) (userId : ℕ) : Prop where
  spent : ∀ token, desk.Owns userId token → ¬ desk.Live token
  overtaken : ∀ id, ∀ call ∈ desk.calls id, ∀ token row,
    call.stage = .issuing token row → row.userId = userId → call.overtaken = true

/-- What a call holds before its next statement. A call that is to revoke holds the user
of the token it presented; one that is to issue holds a token that is spent, and of
which no successor was issued. -/
def StageSound (desk : TokenDesk) (call : TokenCall) : Prop :=
  match call.stage with
  | .revokingAll userId =>
    ∀ token, call.request = .refreshAccessToken token → desk.Owns userId token
  | .rotating token row => desk.Owns row.userId token
  | .issuing token row =>
    desk.Owns row.userId token ∧ desk.Spent token ∧
      (∀ issue ∈ desk.issues, issue.parent ≠ token) ∧
      (desk.loggedOut token = true → call.overtaken = true)
  | _ => True

/-- A call that presents an exchanged token is on its way to being refused, and the
sessions of the user have ended when it is. -/
def ReuseSound (desk : TokenDesk) (call : TokenCall) : Prop :=
  ∃ token, call.request = .refreshAccessToken token ∧
    (∃ issue ∈ desk.issues, issue.parent = token) ∧
    match call.stage with
    | .first => True
    | .revokingAll _ => True
    | .ending answer => (∃ refusal, answer = .refused refusal) ∧
      ∀ userId, desk.Owns userId token → desk.Closed userId
    | .returned answer => (∃ refusal, answer = .refused refusal) ∧
      ∀ userId, desk.Owns userId token → desk.Closed userId
    | _ => False

/-- **The invariant of a run.** Rows are of the user their token was created for, what
was exchanged or logged out is spent, no token has two successors, and each call holds
what its stage needs. -/
structure Sound (desk : TokenDesk) : Prop where
  /-- A row is of the user its token was created for. -/
  owned : ∀ token, ∀ row ∈ desk.table.rows token, desk.Owns row.userId token
  created : ∀ token, desk.table.next ≤ token → desk.created token = none
  exchanged : ∀ issue ∈ desk.issues, desk.Spent issue.parent
  loggedOut : ∀ token, desk.loggedOut token = true → desk.Spent token
  once : desk.issues.Pairwise fun issue other => issue.parent ≠ other.parent
  kept : ∀ issue ∈ desk.issues, issue.loggedOut = false
  stages : ∀ id, ∀ call ∈ desk.calls id, StageSound desk call
  reuses : ∀ id, ∀ call ∈ desk.calls id, call.reuse = true → ReuseSound desk call
  /-- At most one call is to issue the successor of a token. -/
  alone : ∀ id other, ∀ call ∈ desk.calls id, ∀ call' ∈ desk.calls other,
    ∀ token row row', call.stage = .issuing token row → call'.stage = .issuing token row' →
      id = other

/-- What a statement leaves that issues nothing: no row comes back to life, and what
calls are to do stays what it was. Most statements are of this kind, and `Sound` is
shown for them at once. -/
structure Keeps (desk after : TokenDesk) : Prop where
  created : after.created = desk.created
  issues : after.issues = desk.issues
  next : after.table.next = desk.table.next
  rows : ∀ token, ∀ row' ∈ after.table.rows token, ∃ row ∈ desk.table.rows token,
    row.userId = row'.userId ∧ (row'.revokedAt = none → row.revokedAt = none)
  calls : ∀ id, ∀ call' ∈ after.calls id, ∃ call ∈ desk.calls id,
    call'.request = call.request ∧ call'.stage = call.stage ∧ call'.reuse = call.reuse ∧
      (call.overtaken = true → call'.overtaken = true)
  /-- What has come to be logged out was live, or is not to be exchanged. -/
  loggedOut : ∀ token, after.loggedOut token = true → desk.loggedOut token = true ∨
    token < desk.table.next ∧ ¬ after.Live token ∧ (desk.Live token ∨
      ∀ id, ∀ call' ∈ after.calls id, ∀ row, call'.stage = .issuing token row →
        call'.overtaken = true)

section Spec

variable {desk after : TokenDesk} {call : TokenCall} {id token userId : ℕ}
variable {turn : TokenTurn} {event : TokenEvent} {p : ℕ → RefreshToken → Bool}
variable {now : Instant}

/-! ## What a statement leaves -/

theorem Keeps.owns (h : Keeps desk after) : after.Owns userId token ↔ desk.Owns userId token := by
  unfold Owns
  rw [h.created]

theorem Keeps.live (h : Keeps desk after) (hlive : after.Live token) : desk.Live token := by
  obtain ⟨row', hrow', hnone⟩ := hlive
  obtain ⟨row, hrow, -, hkeeps⟩ := h.rows token row' hrow'
  exact ⟨row, hrow, hkeeps hnone⟩

theorem Keeps.spent (h : Keeps desk after) (hspent : desk.Spent token) : after.Spent token :=
  ⟨h.next ▸ hspent.1, fun hlive => hspent.2 (h.live hlive)⟩

theorem Keeps.closed (h : Keeps desk after) (hclosed : desk.Closed userId) :
    after.Closed userId := by
  refine ⟨fun token howns hlive => hclosed.spent token (h.owns.mp howns) (h.live hlive), ?_⟩
  intro id call' hcall' token row hstage huser
  obtain ⟨call, hcall, -, hsame, -, hovertaken⟩ := h.calls id call' hcall'
  exact hovertaken (hclosed.overtaken id call hcall token row (hsame ▸ hstage) huser)

theorem Keeps.stageSound (h : Keeps desk after) (hsound : StageSound desk call)
    {call' : TokenCall} (hrequest : call'.request = call.request)
    (hstage : call'.stage = call.stage) (hovertaken : call.overtaken = true → call'.overtaken = true)
    (hcall' : ∀ token row, call'.stage = .issuing token row → after.loggedOut token = true →
      desk.loggedOut token = true ∨ call'.overtaken = true) :
    StageSound after call' := by
  unfold StageSound at hsound ⊢
  rw [hstage, hrequest]
  rw [hstage] at hcall'
  split at hsound
  · exact fun token hpresents => h.owns.mpr (hsound token hpresents)
  · exact h.owns.mpr hsound
  · rename_i token row hissuing
    obtain ⟨howns, hspent, hnone, hlogged⟩ := hsound
    refine ⟨h.owns.mpr howns, h.spent hspent, fun issue hissue => ?_, fun hafter => ?_⟩
    · rw [h.issues] at hissue
      exact hnone issue hissue
    · exact (hcall' token row hissuing hafter).elim
        (fun hbefore => hovertaken (hlogged hbefore)) fun hnew => hnew
  · trivial

theorem ReuseSound.of (hsound : ReuseSound desk call)
    (hissues : ∀ issue ∈ desk.issues, issue ∈ after.issues)
    (howns : ∀ issue ∈ desk.issues, ∀ userId, after.Owns userId issue.parent →
      desk.Owns userId issue.parent)
    (hclosed : ∀ userId, desk.Closed userId → after.Closed userId) {call' : TokenCall}
    (hrequest : call'.request = call.request) (hstage : call'.stage = call.stage) :
    ReuseSound after call' := by
  obtain ⟨token, hpresents, ⟨issue, hissue, hparent⟩, hrest⟩ := hsound
  refine ⟨token, hrequest.trans hpresents, ⟨issue, hissues issue hissue, hparent⟩, ?_⟩
  have hended : (∀ userId, desk.Owns userId token → desk.Closed userId) →
      ∀ userId, after.Owns userId token → after.Closed userId := by
    subst hparent
    exact fun hbefore userId h => hclosed userId (hbefore userId (howns issue hissue userId h))
  rw [hstage]
  cases hcall : call.stage with
  | first => trivial
  | revokingAll userId => trivial
  | ending answer =>
    rw [hcall] at hrest
    exact ⟨hrest.1, hended hrest.2⟩
  | returned answer =>
    rw [hcall] at hrest
    exact ⟨hrest.1, hended hrest.2⟩
  | rotating token row =>
    rw [hcall] at hrest
    exact hrest
  | issuing token row =>
    rw [hcall] at hrest
    exact hrest

theorem Keeps.reuseSound (h : Keeps desk after) (hsound : ReuseSound desk call)
    {call' : TokenCall} (hrequest : call'.request = call.request)
    (hstage : call'.stage = call.stage) : ReuseSound after call' :=
  hsound.of (fun _ hissue => h.issues ▸ hissue) (fun _ _ _ howns => h.owns.mp howns)
    (fun _ hclosed => h.closed hclosed) hrequest hstage

theorem Keeps.refl (desk : TokenDesk) : Keeps desk desk :=
  ⟨rfl, rfl, rfl, fun _ row hrow => ⟨row, hrow, rfl, fun h => h⟩,
    fun _ call hcall => ⟨call, hcall, rfl, rfl, rfl, fun h => h⟩,
    fun _ hlogged => Or.inl hlogged⟩

/-- **What issues nothing keeps the invariant.** -/
theorem Sound.keep (hsound : Sound desk) (h : Keeps desk after) : Sound after where
  owned := by
    intro token row' hrow'
    obtain ⟨row, hrow, huser, -⟩ := h.rows token row' hrow'
    exact huser ▸ h.owns.mpr (hsound.owned token row hrow)
  created := by
    rw [h.next, h.created]
    exact hsound.created
  exchanged := by
    rw [h.issues]
    exact fun issue hissue => h.spent (hsound.exchanged issue hissue)
  loggedOut := by
    intro token hlogged
    obtain hbefore | ⟨hlt, hdead, -⟩ := h.loggedOut token hlogged
    · exact h.spent (hsound.loggedOut token hbefore)
    · exact ⟨h.next ▸ hlt, hdead⟩
  once := by
    rw [h.issues]
    exact hsound.once
  kept := by
    rw [h.issues]
    exact hsound.kept
  stages := by
    intro id call' hcall'
    obtain ⟨call, hcall, hrequest, hstage, -, hovertaken⟩ := h.calls id call' hcall'
    refine h.stageSound (hsound.stages id call hcall) hrequest hstage hovertaken ?_
    intro token row hissuing hlogged
    obtain hbefore | ⟨-, -, hlive | hmarked⟩ := h.loggedOut token hlogged
    · exact Or.inl hbefore
    · -- what is to be exchanged has been revoked
      have hstageSound := hsound.stages id call hcall
      unfold StageSound at hstageSound
      rw [← hstage, hissuing] at hstageSound
      exact absurd hlive hstageSound.2.1.2
    · exact Or.inr (hmarked id call' hcall' row hissuing)
  reuses := by
    intro id call' hcall' hreuse
    obtain ⟨call, hcall, hrequest, hstage, hsame, -⟩ := h.calls id call' hcall'
    exact h.reuseSound (hsound.reuses id call hcall (hsame ▸ hreuse)) hrequest hstage
  alone := by
    intro id other call hcall call' hcall' token row row' hstage hstage'
    obtain ⟨before, hbefore, -, hsame, -⟩ := h.calls id call hcall
    obtain ⟨before', hbefore', -, hsame', -⟩ := h.calls other call' hcall'
    exact hsound.alone id other before hbefore before' hbefore' token row row'
      (hsame ▸ hstage) (hsame' ▸ hstage')

/-! ## The statements -/

theorem keeps_of_table (desk : TokenDesk) {table : TokenTable}
    (hnext : table.next = desk.table.next)
    (hrows : ∀ token, ∀ row' ∈ table.rows token, ∃ row ∈ desk.table.rows token,
      row.userId = row'.userId ∧ (row'.revokedAt = none → row.revokedAt = none)) :
    Keeps desk { desk with table := table } :=
  ⟨rfl, rfl, hnext, hrows, fun _ call hcall => ⟨call, hcall, rfl, rfl, rfl, fun h => h⟩,
    fun _ hlogged => Or.inl hlogged⟩

theorem mem_rows_revoke {table : TokenTable} {row' : RefreshToken}
    (h : row' ∈ (table.revoke p now).rows token) :
    ∃ row ∈ table.rows token,
      row' = if p token row then { row with revokedAt := some now } else row := by
  obtain ⟨row, hrow, rfl⟩ := Option.map_eq_some_iff.mp h
  exact ⟨row, hrow, rfl⟩

theorem rows_revoke {table : TokenTable} {row' : RefreshToken}
    (h : row' ∈ (table.revoke p now).rows token) :
    ∃ row ∈ table.rows token, row.userId = row'.userId ∧
      (row'.revokedAt = none → row.revokedAt = none) := by
  obtain ⟨row, hrow, rfl⟩ := mem_rows_revoke h
  by_cases hp : p token row = true
  · rw [if_pos hp]
    exact ⟨row, hrow, rfl, fun h => nomatch h⟩
  · rw [if_neg hp]
    exact ⟨row, hrow, rfl, fun h => h⟩

/-- A row that meets the condition is revoked. -/
theorem not_live_revoke (h : ∀ row ∈ desk.table.rows token, row.revokedAt = none →
    p token row = true) : ¬ (desk.revoke p now).Live token := by
  rintro ⟨row', hrow', hnone⟩
  obtain ⟨row, hrow, rfl⟩ := mem_rows_revoke hrow'
  by_cases hp : p token row = true
  · rw [if_pos hp] at hnone
    cases hnone
  · rw [if_neg hp] at hnone
    exact hp (h row hrow hnone)

theorem keeps_revoke (desk : TokenDesk) (p : ℕ → RefreshToken → Bool) (now : Instant) :
    Keeps desk (desk.revoke p now) :=
  keeps_of_table desk rfl fun _ _ hrow' => rows_revoke hrow'

theorem keeps_delete (desk : TokenDesk) (p : RefreshToken → Bool) :
    Keeps desk { desk with table := desk.table.delete p } := by
  refine keeps_of_table desk rfl fun token row hrow => ?_
  exact ⟨row, (Option.filter_eq_some_iff.mp hrow).1, rfl, fun h => h⟩

theorem mem_calls_overtake {call' : TokenCall} (h : call' ∈ (desk.overtake p).calls id) :
    ∃ call ∈ desk.calls id, call'.request = call.request ∧ call'.stage = call.stage ∧
      call'.reuse = call.reuse ∧ (call.overtaken = true → call'.overtaken = true) ∧
      ∀ token row, call.stage = .issuing token row → p token row = true →
        call'.overtaken = true := by
  obtain ⟨call, hcall, rfl⟩ := Option.map_eq_some_iff.mp h
  refine ⟨call, hcall, ?_⟩
  split
  · rename_i token row hissuing
    refine ⟨rfl, rfl, rfl, fun h => by simp [h], fun token' row' hstage hp => ?_⟩
    obtain ⟨rfl, rfl⟩ := TokenStage.issuing.inj (hissuing.symm.trans hstage)
    simp [hp]
  · rename_i hother
    exact ⟨rfl, rfl, rfl, fun h => h, fun token row hstage => absurd hstage (hother _ _)⟩

theorem keeps_overtake (desk : TokenDesk) (p : ℕ → RefreshToken → Bool) :
    Keeps desk (desk.overtake p) := by
  refine ⟨rfl, rfl, rfl, fun _ row hrow => ⟨row, hrow, rfl, fun h => h⟩, ?_,
    fun _ hlogged => Or.inl hlogged⟩
  intro id call' hcall'
  obtain ⟨call, hcall, hrequest, hstage, hreuse, hovertaken, -⟩ := mem_calls_overtake hcall'
  exact ⟨call, hcall, hrequest, hstage, hreuse, hovertaken⟩

theorem mem_of_any {row? : Option RefreshToken} {q : RefreshToken → Bool}
    (h : row?.any q = true) : ∃ row ∈ row?, q row = true := by
  cases row? with
  | none => cases h
  | some row => exact ⟨row, rfl, h⟩

theorem lt_next_of_mem {row : RefreshToken} (h : row ∈ desk.table.rows token) :
    token < desk.table.next := by
  by_contra hle
  rw [desk.table.unused token (Nat.le_of_not_lt hle)] at h
  cases h

theorem Owns.eq {other : ℕ} (h : desk.Owns userId token) (h' : desk.Owns other token) :
    userId = other := by
  obtain ⟨row, hrow, rfl⟩ := h
  obtain ⟨row', hrow', rfl⟩ := h'
  rw [Option.some.inj (hrow.symm.trans hrow')]

/-- The logout of all tokens. -/
theorem keeps_logOut_all (desk : TokenDesk) (userId : ℕ) (now : Instant) :
    Keeps desk ((desk.logOut (isLiveOf userId)).revoke (isLiveOf userId) now) := by
  refine ⟨rfl, rfl, rfl, fun _ _ hrow' => rows_revoke hrow',
    fun _ call hcall => ⟨call, hcall, rfl, rfl, rfl, fun h => h⟩, fun token hlogged => ?_⟩
  obtain hbefore | hmatched := Bool.or_eq_true_iff.mp hlogged
  · exact Or.inl hbefore
  · obtain ⟨row, hrow, hlive⟩ := mem_of_any hmatched
    have hnone : row.revokedAt = none := by
      simpa [isLiveOf] using (Bool.and_eq_true_iff.mp hlive).2
    refine Or.inr ⟨lt_next_of_mem hrow, ?_, Or.inl ⟨row, hrow, hnone⟩⟩
    · refine @not_live_revoke (desk.logOut (isLiveOf userId)) _ _ _ fun row' hrow' _ => ?_
      obtain rfl : row = row' := Option.some.inj (hrow.symm.trans hrow')
      exact hlive

/-- The logout of one token: who is to exchange it is overtaken. -/
theorem keeps_logOut_one (hsound : Sound desk) (userId own : ℕ) (now : Instant) :
    Keeps desk (((desk.logOut (isOwn userId own)).overtake (isOwn userId own)).revoke
      (isOwn userId own) now) := by
  refine ⟨rfl, rfl, rfl, fun _ _ hrow' => rows_revoke hrow', ?_, fun token hlogged => ?_⟩
  · exact (keeps_overtake (desk.logOut (isOwn userId own)) (isOwn userId own)).calls
  · obtain hbefore | hmatched := Bool.or_eq_true_iff.mp hlogged
    · exact Or.inl hbefore
    · obtain ⟨row, hrow, hown⟩ := mem_of_any hmatched
      refine Or.inr ⟨lt_next_of_mem hrow, ?_, Or.inr ?_⟩
      · refine @not_live_revoke ((desk.logOut (isOwn userId own)).overtake (isOwn userId own))
          _ _ _ fun row' hrow' _ => ?_
        obtain rfl : row = row' := Option.some.inj (hrow.symm.trans hrow')
        exact hown
      · intro id call' hcall' row' hissuing
        obtain ⟨call, hcall, -, hstage, -, -, hmarked⟩ :=
          @mem_calls_overtake (desk.logOut (isOwn userId own)) id (isOwn userId own) call' hcall'
        rw [hstage] at hissuing
        -- the row that is to be exchanged is of the same user
        have hstageSound := hsound.stages id call hcall
        unfold StageSound at hstageSound
        rw [hissuing] at hstageSound
        have huser : row'.userId = row.userId :=
          hstageSound.1.eq (hsound.owned token row hrow)
        refine hmarked token row' hissuing ?_
        unfold isOwn at hown ⊢
        rw [huser]
        exact hown

/-! ## One step -/

theorem mem_calls_put {other : ℕ} {call' : TokenCall}
    (h : call' ∈ (desk.put id call).calls other) :
    other = id ∧ call' = call ∨ other ≠ id ∧ call' ∈ desk.calls other := by
  by_cases hother : other = id
  · subst hother
    exact Or.inl ⟨rfl, by simpa [put, eq_comm] using h⟩
  · exact Or.inr ⟨hother, by simpa [put, Function.update_of_ne hother] using h⟩

/-- A user whose sessions have ended has ended sessions still, unless the call is to
issue a token. -/
theorem Closed.put (h : desk.Closed userId)
    (hstage : ∀ token row, call.stage = .issuing token row → row.userId ≠ userId) :
    (desk.put id call).Closed userId := by
  refine ⟨h.spent, fun other call' hcall' token row hissuing huser => ?_⟩
  obtain ⟨-, rfl⟩ | ⟨-, hcall'⟩ := mem_calls_put hcall'
  · exact absurd huser (hstage token row hissuing)
  · exact h.overtaken other call' hcall' token row hissuing huser

/-- A statement that issues nothing, and what its call does next. -/
theorem sound_put {mid : TokenDesk} (hsound : Sound desk) (hkeeps : Keeps desk mid)
    (hstage : StageSound mid call)
    (hreuse : call.reuse = true → ReuseSound (mid.put id call) call)
    (hclosed : ∀ userId, desk.Closed userId → (mid.put id call).Closed userId)
    (halone : ∀ token row, call.stage = .issuing token row → ∀ other,
      ∀ call' ∈ mid.calls other, ∀ row', call'.stage = .issuing token row' → other = id) :
    Sound (mid.put id call) := by
  have hmid : Sound mid := hsound.keep hkeeps
  refine ⟨hmid.owned, hmid.created, hmid.exchanged, hmid.loggedOut, hmid.once, hmid.kept,
    fun other call' hcall' => ?_, fun other call' hcall' hreuse' => ?_, ?_⟩
  · obtain ⟨-, rfl⟩ | ⟨-, hcall'⟩ := mem_calls_put hcall'
    · exact hstage
    · exact hmid.stages other call' hcall'
  · obtain ⟨-, rfl⟩ | ⟨-, hcall'⟩ := mem_calls_put hcall'
    · exact hreuse hreuse'
    · obtain ⟨before, hbefore, hrequest, hsame, hreuses, -⟩ := hkeeps.calls other call' hcall'
      exact @ReuseSound.of desk (mid.put id call) before
        (hsound.reuses other before hbefore (hreuses ▸ hreuse'))
        (fun _ hissue => hkeeps.issues ▸ hissue) (fun _ _ _ howns => hkeeps.owns.mp howns)
        hclosed call' hrequest hsame
  · intro first second call₁ hcall₁ call₂ hcall₂ token row row' hstage₁ hstage₂
    obtain ⟨hfirst, hsame₁⟩ | ⟨-, hmid₁⟩ := mem_calls_put hcall₁
    · obtain ⟨hsecond, -⟩ | ⟨-, hmid₂⟩ := mem_calls_put hcall₂
      · rw [hfirst, hsecond]
      · rw [hfirst]
        exact (halone token row (hsame₁ ▸ hstage₁) second call₂ hmid₂ row' hstage₂).symm
    · obtain ⟨hsecond, hsame₂⟩ | ⟨-, hmid₂⟩ := mem_calls_put hcall₂
      · rw [hsecond]
        exact halone token row' (hsame₂ ▸ hstage₂) first call₁ hmid₁ row hstage₁
      · exact hmid.alone first second call₁ hmid₁ call₂ hmid₂ token row row' hstage₁ hstage₂

/-- The same, where the call is not to issue a token next. -/
theorem sound_put_of_not_issuing {mid : TokenDesk} (hsound : Sound desk)
    (hkeeps : Keeps desk mid) (hnot : ∀ token row, call.stage ≠ .issuing token row)
    (hstage : StageSound mid call)
    (hreuse : call.reuse = true → ReuseSound (mid.put id call) call) :
    Sound (mid.put id call) :=
  sound_put hsound hkeeps hstage hreuse
    (fun _ hclosed => (hkeeps.closed hclosed).put fun token row h => absurd h (hnot token row))
    fun token row h => absurd h (hnot token row)

theorem sound_begin (hsound : Sound desk) {now : Instant} {request : TokenRequest} :
    Sound (desk.put id (desk.begun now request)) := by
  refine sound_put_of_not_issuing hsound (Keeps.refl desk) nofun trivial fun hreuse => ?_
  change desk.reuses now request = true at hreuse
  unfold reuses at hreuse
  split at hreuse
  · rename_i token
    obtain ⟨issue, hissue, hparent⟩ :=
      List.any_eq_true.mp (Bool.and_eq_true_iff.mp hreuse).1
    exact ⟨token, rfl, ⟨issue, hissue, beq_iff_eq.mp hparent⟩, trivial⟩
  · cases hreuse

/-- What a lookup leads to, by what it finds. -/
theorem lookedUp_spec (desk : TokenDesk) (token : ℕ) (turn : TokenTurn) :
    (desk.table.rows token = none ∧ desk.lookedUp token turn = .ending (.refused .invalid)) ∨
      ∃ row ∈ desk.table.rows token,
        row.revokedAt ≠ none ∧ desk.lookedUp token turn = .revokingAll row.userId ∨
          row.revokedAt = none ∧
            ((∃ refusal, desk.lookedUp token turn = .ending (.refused refusal)) ∨
              desk.lookedUp token turn = .rotating token row) := by
  unfold lookedUp
  cases hrow : desk.table.rows token with
  | none => exact Or.inl ⟨rfl, rfl⟩
  | some row =>
    refine Or.inr ⟨row, rfl, ?_⟩
    dsimp only
    cases hrevoked : row.revokedAt with
    | some instant => exact Or.inl ⟨nofun, rfl⟩
    | none =>
      refine Or.inr ⟨rfl, ?_⟩
      rw [if_neg (by simp)]
      split
      · exact Or.inl ⟨_, rfl⟩
      · split
        · exact Or.inl ⟨_, rfl⟩
        · exact Or.inr rfl

/-- The lookup of a token that has been exchanged finds it revoked, if it finds
it. -/
theorem sound_lookup (hsound : Sound desk) (hcall : desk.calls id = some call)
    (hrequest : call.request = .refreshAccessToken token)
    (hthere : call.reuse = true → desk.table.rows token ≠ none) :
    Sound (desk.put id { call with stage := desk.lookedUp token turn }) := by
  obtain ⟨hnone, hstage⟩ | ⟨row, hrow, hfound⟩ := lookedUp_spec desk token turn
  · rw [hstage]
    exact sound_put_of_not_issuing hsound (Keeps.refl desk) nofun trivial
      fun hreuse => absurd hnone (hthere hreuse)
  have howns := hsound.owned token row hrow
  have hexchanged : call.reuse = true → row.revokedAt ≠ none ∧
      ∃ issue ∈ desk.issues, issue.parent = token := by
    intro hreuse
    obtain ⟨token', hpresents, ⟨issue, hissue, hparent⟩, -⟩ :=
      hsound.reuses id call hcall hreuse
    obtain rfl := TokenRequest.refreshAccessToken.inj (hrequest.symm.trans hpresents)
    exact ⟨fun hlive => (hsound.exchanged issue hissue).2 (hparent ▸ ⟨row, hrow, hlive⟩),
      issue, hissue, hparent⟩
  obtain ⟨-, hstage⟩ | ⟨hlive, ⟨refusal, hstage⟩ | hstage⟩ := hfound
  · rw [hstage]
    refine sound_put_of_not_issuing hsound (Keeps.refl desk) nofun ?_ fun hreuse =>
      ⟨token, hrequest, (hexchanged hreuse).2, trivial⟩
    intro token' hpresents
    obtain rfl := TokenRequest.refreshAccessToken.inj (hrequest.symm.trans hpresents)
    exact howns
  · rw [hstage]
    exact sound_put_of_not_issuing hsound (Keeps.refl desk) nofun trivial
      fun hreuse => absurd hlive (hexchanged hreuse).1
  · rw [hstage]
    exact sound_put_of_not_issuing hsound (Keeps.refl desk) nofun howns
      fun hreuse => absurd hlive (hexchanged hreuse).1

theorem request_of_reuse (hsound : Sound desk) (hcall : desk.calls id = some call)
    (hreuse : call.reuse = true) : ∃ token, call.request = .refreshAccessToken token := by
  obtain ⟨token, hpresents, -⟩ := hsound.reuses id call hcall hreuse
  exact ⟨token, hpresents⟩

/-- The one statement of a call that is no refresh. -/
theorem sound_done {mid : TokenDesk} (hsound : Sound desk) (hkeeps : Keeps desk mid)
    (hcall : desk.calls id = some call)
    (hrequest : ∀ token, call.request ≠ .refreshAccessToken token) :
    Sound (mid.put id { call with stage := .ending .done }) := by
  refine sound_put_of_not_issuing hsound hkeeps nofun trivial fun hreuse => ?_
  obtain ⟨token, hpresents⟩ := request_of_reuse hsound hcall hreuse
  exact absurd hpresents (hrequest token)

theorem sound_executeFirst (hsound : Sound desk) (hcall : desk.calls id = some call)
    (hthere : call.reuse = true → ∀ token ∈ call.request.presents,
      desk.table.rows token ≠ none) : Sound (desk.executeFirst id call turn) := by
  unfold executeFirst
  split
  · rename_i token hrequest
    have hpresents : token ∈ call.request.presents := by
      rw [hrequest]
      rfl
    exact sound_lookup hsound hcall hrequest fun hreuse => hthere hreuse token hpresents
  · rename_i userId token hrequest
    exact sound_done hsound (keeps_logOut_one hsound userId token turn.now) hcall
      fun _ h => nomatch hrequest.symm.trans h
  · rename_i userId hrequest
    exact sound_done hsound (keeps_logOut_all desk userId turn.now) hcall
      fun _ h => nomatch hrequest.symm.trans h
  · rename_i userId hrequest
    exact sound_done hsound (keeps_revoke desk (isLiveOf userId) turn.now) hcall
      fun _ h => nomatch hrequest.symm.trans h
  · rename_i hrequest
    exact sound_done hsound (keeps_delete desk _) hcall fun _ h => nomatch hrequest.symm.trans h

theorem Keeps.trans {mid : TokenDesk} (h : Keeps desk mid) (h' : Keeps mid after)
    (hlogged : mid.loggedOut = desk.loggedOut) (hafter : after.loggedOut = mid.loggedOut) :
    Keeps desk after where
  created := h'.created.trans h.created
  issues := h'.issues.trans h.issues
  next := h'.next.trans h.next
  rows := by
    intro token row'' hrow''
    obtain ⟨row', hrow', huser', hnone'⟩ := h'.rows token row'' hrow''
    obtain ⟨row, hrow, huser, hnone⟩ := h.rows token row' hrow'
    exact ⟨row, hrow, huser.trans huser', fun h => hnone (hnone' h)⟩
  calls := by
    intro id call'' hcall''
    obtain ⟨call', hcall', hrequest', hstage', hreuse', hovertaken'⟩ := h'.calls id call'' hcall''
    obtain ⟨call, hcall, hrequest, hstage, hreuse, hovertaken⟩ := h.calls id call' hcall'
    exact ⟨call, hcall, hrequest'.trans hrequest, hstage'.trans hstage,
      hreuse'.trans hreuse, fun h => hovertaken' (hovertaken h)⟩
  loggedOut := fun token h => Or.inl (by rw [hafter, hlogged] at h; exact h)

/-- **Reuse ends the sessions of the user.** -/
theorem sound_revokingAll (hsound : Sound desk) (hcall : desk.calls id = some call)
    (hstage : call.stage = .revokingAll userId) :
    Sound (((desk.overtake fun _ row => row.userId == userId).revoke (isLiveOf userId) now).put
      id { call with stage := .ending (.refused .revoked) }) := by
  have hstageSound := hsound.stages id call hcall
  unfold StageSound at hstageSound
  rw [hstage] at hstageSound
  have hkeeps : Keeps desk
      ((desk.overtake fun _ row => row.userId == userId).revoke (isLiveOf userId) now) :=
    (keeps_overtake desk _).trans (keeps_revoke _ _ _) rfl rfl
  refine sound_put_of_not_issuing hsound hkeeps nofun trivial fun hreuse => ?_
  obtain ⟨token, hpresents, hexchanged, -⟩ := hsound.reuses id call hcall hreuse
  refine ⟨token, hpresents, hexchanged, ⟨_, rfl⟩, fun other howns => ?_⟩
  obtain rfl : userId = other := (hstageSound token hpresents).eq howns
  have hclosed : ((desk.overtake fun _ row => row.userId == userId).revoke
      (isLiveOf userId) now).Closed userId := by
    refine ⟨fun own hown => ?_, fun other call' hcall' own row hissuing huser => ?_⟩
    · refine @not_live_revoke (desk.overtake fun _ row => row.userId == userId) _ _ _ ?_
      intro row hrow hnone
      have huser : row.userId = userId := (hsound.owned own row hrow).eq hown
      simp [isLiveOf, huser, hnone]
    · obtain ⟨before, hbefore, -, hsame, -, -, hmarked⟩ := mem_calls_overtake hcall'
      exact hmarked own row (hsame ▸ hissuing) (beq_iff_eq.mpr huser)
  exact hclosed.put nofun

/-- **A rotation revokes what it found live.** -/
theorem sound_rotating {row : RefreshToken} (hsound : Sound desk)
    (hcall : desk.calls id = some call) (hstage : call.stage = .rotating token row)
    (hlive : desk.Live token) :
    Sound ((desk.revoke (fun other _ => other == token) now).put id
      { call with stage := .issuing token row }) := by
  have hstageSound := hsound.stages id call hcall
  unfold StageSound at hstageSound
  rw [hstage] at hstageSound
  have hkeeps := keeps_revoke desk (fun other _ => other == token) now
  have hspent : (desk.revoke (fun other _ => other == token) now).Spent token := by
    obtain ⟨current, hcurrent, -⟩ := hlive
    have hlt : token < desk.table.next := lt_next_of_mem hcurrent
    exact ⟨hlt, not_live_revoke fun _ _ _ => beq_self_eq_true token⟩
  refine sound_put hsound hkeeps ⟨hstageSound, hspent, ?_, ?_⟩ ?_ ?_ ?_
  · rintro issue hissue rfl
    exact (hsound.exchanged issue hissue).2 hlive
  · exact fun hlogged => absurd hlive (hsound.loggedOut token hlogged).2
  · intro hreuse
    obtain ⟨_, _, -, hrest⟩ := hsound.reuses id call hcall hreuse
    rw [hstage] at hrest
    exact hrest.elim
  · intro userId hclosed
    refine (hkeeps.closed hclosed).put fun own row' hissuing huser => ?_
    obtain ⟨rfl, rfl⟩ := TokenStage.issuing.inj hissuing
    exact hclosed.spent token (huser ▸ hstageSound) hlive
  · intro own row' hissuing other call' hcall' row'' hissuing'
    obtain ⟨rfl, rfl⟩ := TokenStage.issuing.inj hissuing
    have hother := hsound.stages other call' hcall'
    unfold StageSound at hother
    rw [hissuing'] at hother
    exact absurd hlive hother.2.1.2

/-! ## The issue of a successor -/

section Issue

variable {row : RefreshToken}

theorem owns_issue_of_ne {other : ℕ} (h : other ≠ desk.table.next) :
    (desk.issue id token row turn).Owns userId other ↔ desk.Owns userId other := by
  unfold Owns issue
  dsimp only
  rw [Function.update_of_ne h]

theorem owns_issue_next :
    (desk.issue id token row turn).Owns userId desk.table.next ↔ row.userId = userId := by
  unfold Owns issue
  dsimp only
  rw [Function.update_self]
  simp

theorem live_issue_of_ne {other : ℕ} (h : other ≠ desk.table.next) :
    (desk.issue id token row turn).Live other ↔ desk.Live other := by
  unfold Live issue TokenTable.create
  dsimp only
  rw [Function.update_of_ne h]

theorem Spent.issue {other : ℕ} (h : desk.Spent other) :
    (desk.issue id token row turn).Spent other :=
  ⟨Nat.lt_succ_of_lt h.1, fun hlive => h.2 ((live_issue_of_ne (Nat.ne_of_lt h.1)).mp hlive)⟩

theorem Sound.lt_of_owns {other : ℕ} (hsound : Sound desk) (h : desk.Owns userId other) :
    other ≠ desk.table.next := by
  rintro rfl
  obtain ⟨row, hrow, -⟩ := h
  rw [hsound.created _ (Nat.le_refl _)] at hrow
  cases hrow

/-- A call that is to do something else does so still. -/
theorem StageSound.issue {call' : TokenCall} (hsound : Sound desk)
    (h : StageSound desk call') (hother : ∀ row', call'.stage ≠ .issuing token row') :
    StageSound (desk.issue id token row turn) call' := by
  have howns : ∀ {userId own}, desk.Owns userId own →
      (desk.issue id token row turn).Owns userId own :=
    fun h => (owns_issue_of_ne (hsound.lt_of_owns h)).mpr h
  unfold StageSound at h ⊢
  split at h
  · exact fun own hpresents => howns (h own hpresents)
  · exact howns h
  · rename_i own row' hissuing
    refine ⟨howns h.1, h.2.1.issue, fun issue hissue => ?_, h.2.2.2⟩
    obtain hold | hnew := List.mem_append.mp hissue
    · exact h.2.2.1 issue hold
    · rw [List.mem_singleton.mp hnew]
      rintro rfl
      exact hother row' hissuing
  · trivial

/-- **A rotation that is not overtaken issues the one successor.** -/
theorem sound_issuing (hsound : Sound desk) (hcall : desk.calls id = some call)
    (hstage : call.stage = .issuing token row) (hnot : call.overtaken = false)
    {answer : TokenAnswer} :
    Sound ((desk.issue id token row turn).put id { call with stage := .ending answer }) := by
  have hstageSound := hsound.stages id call hcall
  unfold StageSound at hstageSound
  rw [hstage] at hstageSound
  obtain ⟨-, hspent, hfresh, hlogged⟩ := hstageSound
  have hclosed : ∀ userId, desk.Closed userId →
      ((desk.issue id token row turn).put id { call with stage := .ending answer }).Closed
        userId := by
    intro userId hclosed
    have huser : row.userId ≠ userId := by
      intro huser
      rw [hclosed.overtaken id call hcall token row hstage huser] at hnot
      cases hnot
    have hissue : (desk.issue id token row turn).Closed userId := by
      refine ⟨fun own hown hlive => ?_, hclosed.overtaken⟩
      by_cases hnext : own = desk.table.next
      · rw [hnext] at hown
        exact huser (owns_issue_next.mp hown)
      · exact hclosed.spent own ((owns_issue_of_ne hnext).mp hown)
          ((live_issue_of_ne hnext).mp hlive)
    exact hissue.put nofun
  have hstays : ∀ own, desk.Spent own → (desk.issue id token row turn).Spent own :=
    fun own hown => hown.issue
  refine ⟨fun own row' hrow' => ?_, fun own hle => ?_, fun issue hissue => ?_,
    fun own hown => hstays own (hsound.loggedOut own hown), ?_, fun issue hissue => ?_,
    fun other call' hcall' => ?_, fun other call' hcall' hreuse => ?_, ?_⟩
  · show (desk.issue id token row turn).Owns row'.userId own
    by_cases hnext : own = desk.table.next
    · subst hnext
      obtain rfl : (⟨row.userId, turn.expiresAt, none⟩ : RefreshToken) = row' := by
        simpa [put, issue, TokenTable.create] using hrow'
      exact owns_issue_next.mpr rfl
    · rw [owns_issue_of_ne hnext]
      refine hsound.owned own row' ?_
      simpa [put, issue, TokenTable.create, Function.update_of_ne hnext] using hrow'
  · have hlt : desk.table.next < own := hle
    show Function.update desk.created desk.table.next _ own = none
    rw [Function.update_of_ne (Nat.ne_of_gt hlt)]
    exact hsound.created own (Nat.le_of_lt hlt)
  · obtain hold | hnew := List.mem_append.mp hissue
    · exact hstays issue.parent (hsound.exchanged issue hold)
    · rw [List.mem_singleton.mp hnew]
      exact hstays token hspent
  · show (desk.issues ++ [_]).Pairwise _
    rw [List.pairwise_append]
    refine ⟨hsound.once, List.pairwise_singleton _ _, fun issue hissue other hother => ?_⟩
    rw [List.mem_singleton.mp hother]
    exact hfresh issue hissue
  · obtain hold | hnew := List.mem_append.mp hissue
    · exact hsound.kept issue hold
    · rw [List.mem_singleton.mp hnew]
      show desk.loggedOut token = false
      by_contra htrue
      rw [hlogged (by simpa using htrue)] at hnot
      cases hnot
  · obtain ⟨-, rfl⟩ | ⟨hother, hcall'⟩ := mem_calls_put hcall'
    · trivial
    · refine (hsound.stages other call' hcall').issue hsound fun row' hissuing => hother ?_
      exact hsound.alone other id call' hcall' call hcall token row' row hissuing hstage
  · obtain ⟨-, rfl⟩ | ⟨-, hcall'⟩ := mem_calls_put hcall'
    · obtain ⟨_, -, -, hrest⟩ := hsound.reuses id call hcall hreuse
      rw [hstage] at hrest
      exact hrest.elim
    · refine (hsound.reuses other call' hcall' hreuse).of
        (fun _ hissue => List.mem_append_left _ hissue) (fun issue hissue userId howns => ?_)
        hclosed rfl rfl
      have hne : issue.parent ≠ desk.table.next :=
        Nat.ne_of_lt (hsound.exchanged issue hissue).1
      exact (@owns_issue_of_ne desk id token userId turn row _ hne).mp howns
  · intro first second call₁ hcall₁ call₂ hcall₂ own row₁ row₂ hissuing₁ hissuing₂
    obtain ⟨-, rfl⟩ | ⟨-, hbefore₁⟩ := mem_calls_put hcall₁
    · cases hissuing₁
    · obtain ⟨-, rfl⟩ | ⟨-, hbefore₂⟩ := mem_calls_put hcall₂
      · cases hissuing₂
      · exact hsound.alone first second call₁ hbefore₁ call₂ hbefore₂ own row₁ row₂ hissuing₁
          hissuing₂

end Issue

/-! ## Runs -/

theorem sound_ending {answer : TokenAnswer} (hsound : Sound desk)
    (hcall : desk.calls id = some call) (hstage : call.stage = .ending answer)
    (returnedAt : Option ℕ) :
    Sound (desk.put id { call with stage := .returned answer, returnedAt := returnedAt }) := by
  refine sound_put_of_not_issuing hsound (Keeps.refl desk) nofun trivial fun hreuse => ?_
  obtain ⟨token, hpresents, hexchanged, hrest⟩ := hsound.reuses id call hcall hreuse
  rw [hstage] at hrest
  exact ⟨token, hpresents, hexchanged, hrest.1,
    fun userId howns => (hrest.2 userId howns).put nofun⟩

theorem sound_execute (hsound : Sound desk) (hcall : desk.calls id = some call)
    (h : Unraced desk (.next id turn)) : Sound (desk.execute id call turn) := by
  have hunraced := h call hcall
  unfold FindsUnchanged at hunraced
  unfold execute
  split
  · rename_i hstage
    rw [hstage] at hunraced
    exact sound_executeFirst hsound hcall hunraced
  · rename_i userId hstage
    exact sound_revokingAll hsound hcall hstage
  · rename_i token row hstage
    rw [hstage] at hunraced
    cases hrow : desk.table.rows token with
    | none =>
      refine sound_put_of_not_issuing hsound (Keeps.refl desk) nofun trivial fun hreuse => ?_
      obtain ⟨_, -, -, hrest⟩ := hsound.reuses id call hcall hreuse
      rw [hstage] at hrest
      exact hrest.elim
    | some current =>
      exact sound_rotating hsound hcall hstage ⟨current, hrow, hunraced current hrow⟩
  · rename_i token row hstage
    rw [hstage] at hunraced
    exact sound_issuing hsound hcall hstage hunraced
  · rename_i answer hstage
    exact sound_ending hsound hcall hstage _
  · exact hsound

theorem sound_tick (hsound : Sound desk) (clock : ℕ) : Sound { desk with clock := clock } := by
  refine hsound.keep ⟨rfl, rfl, rfl, fun _ row hrow => ⟨row, hrow, rfl, fun h => h⟩, ?_,
    fun _ hlogged => Or.inl hlogged⟩
  exact fun _ call hcall => ⟨call, hcall, rfl, rfl, rfl, fun h => h⟩

theorem sound_step (hsound : Sound desk) (h : Unraced desk event) : Sound (desk.step event) := by
  refine sound_tick ?_ _
  unfold act
  split
  · split
    · exact hsound
    · exact sound_begin hsound
  · split
    · rename_i call hcall
      exact sound_execute hsound hcall h
    · exact hsound

theorem sound_start (table : TokenTable) : Sound (start table) where
  owned := fun _ row hrow => ⟨row, hrow, rfl⟩
  created := table.unused
  exchanged := fun _ h => nomatch h
  loggedOut := fun _ h => nomatch h
  once := List.Pairwise.nil
  kept := fun _ h => nomatch h
  stages := fun _ _ h => nomatch h
  reuses := fun _ _ h => nomatch h
  alone := fun _ _ _ h => nomatch h

theorem Sound.singleUse (hsound : Sound desk) : SingleUse desk where
  once := hsound.once
  loggedOut := hsound.kept
  reused := by
    intro id call hcall hreuse answer hstage
    obtain ⟨token, hpresents, -, hrest⟩ := hsound.reuses id call hcall hreuse
    rw [hstage] at hrest
    refine ⟨hrest.1, fun token' userId other hrequest howns howns' _ => ?_⟩
    obtain rfl := TokenRequest.refreshAccessToken.inj (hpresents.symm.trans hrequest)
    exact (hrest.2 userId howns).spent other howns'

/-- **In an unraced run a refresh token is exchanged at most once, and reuse ends
the session.** -/
theorem singleUse_of_unraced (table : TokenTable) (events : List TokenEvent)
    (h : Machine.Always step Unraced (start table) events) :
    SingleUse (Machine.run step (start table) events) :=
  (Machine.run_invariant (fun _ _ hsound h => sound_step hsound h) (sound_start table) h).singleUse

end Spec

/-! ## A token that is exchanged twice -/

/-- One token of one user, which expires at 1000. -/
def oneToken : TokenTable where
  rows := fun token => if token = 0 then some ⟨7, 1000, none⟩ else none
  next := 1
  unused := fun token h => if_neg (by omega)

/-- A turn at 0, with the user active; what is issued in it expires at 1000. -/
def quietTurn : TokenTurn := ⟨0, true, 1000⟩

/-- A refresh of the token, from its lookup to its return, with no other call in
between. -/
def exchange (id : ℕ) : List TokenEvent :=
  .begin id 0 (.refreshAccessToken 0) :: List.replicate 4 (.next id quietTurn)

/-- The token is exchanged, and then presented again. The second call revokes what the
first issued. -/
def exchangedThenReused : List TokenEvent :=
  exchange 0 ++ .begin 1 0 (.refreshAccessToken 0) :: List.replicate 3 (.next 1 quietTurn)

/-- After the reuse neither token is live. -/
theorem singleUse_exchangedThenReused :
    SingleUse (Machine.run step (start oneToken) exchangedThenReused) :=
  singleUse_of_unraced oneToken exchangedThenReused (by decide)

/-- Two refreshes look the token up before either revokes it. Both go on to issue a
successor. -/
def bothLookUp : List TokenEvent :=
  [.begin 0 0 (.refreshAccessToken 0), .begin 1 0 (.refreshAccessToken 0),
    .next 0 quietTurn, .next 1 quietTurn, .next 0 quietTurn, .next 1 quietTurn,
    .next 0 quietTurn, .next 1 quietTurn]

/-- **A token is exchanged twice.** -/
theorem exchanged_twice :
    ¬ ∀ table events, SingleUse (Machine.run step (start table) events) := by
  intro h
  have honce := (h oneToken bothLookUp).once
  have hparents : (Machine.run step (start oneToken) bothLookUp).issues.map (·.parent)
      = [0, 0] := by
    decide
  have hdistinct := List.pairwise_map.mpr honce
  rw [hparents] at hdistinct
  revert hdistinct
  decide

end TokenDesk

end Opifex
