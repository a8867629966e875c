import WebSub.Http.Exchange

/-!
# Following redirects

A posted form is answered in the end where a chain of redirects that is not too long comes to an
answer that is none. Without such a chain there is no answer, and there is one place where the chain
breaks.
-/

namespace WebSub.Http

variable {net : Network} {asked : Url} {budget n k : Nat} {hop next last : Hop} {a b : Answer}

/-! ## One request -/

/-- The `n`-th request is answered, and the answer leads on to the next one, on whatever host. -/
def Redirects (net : Network) (n : Nat) (hop next : Hop) : Prop :=
  ∃ a place url, net.reply? n hop.url.origin = some (.answer a) ∧
    hop.redirect? a = some place ∧ Url.ofText? place.toText = some url ∧ url.isWeb = true ∧
      next = hop.onward a place url

/-- The `n`-th request is answered, and the answer leads nowhere else. -/
def Settles (net : Network) (n : Nat) (hop : Hop) (a : Answer) : Prop :=
  net.reply? n hop.url.origin = some (.answer a) ∧ hop.redirect? a = none

/-- Nothing is reached, nothing comes back, or a redirect is not followed: because no further one
may be, or because there is nothing to ask for where it leads. -/
inductive Breaks (net : Network) (n : Nat) (exhausted : Prop) (hop : Hop) : Prop
  | refused (unreached : net.reply? n hop.url.origin = none)
  | dropped (closed : net.reply? n hop.url.origin = some .closed)
  | misled {a : Answer} {place : Reference}
      (answered : net.reply? n hop.url.origin = some (.answer a))
      (redirect : hop.redirect? a = some place)
      (lost : exhausted ∨ ∀ url, Url.ofText? place.toText = some url → url.isWeb = false)

theorem follow_redirects (h : Redirects net n hop next) :
    (follow net asked (budget + 1) n hop).outcome =
      (follow net asked budget (n + 1) next).outcome := by
  obtain ⟨a, place, url, answered, redirect, read, web, rfl⟩ := h
  rw [follow]
  simp only [answered, redirect, read, web, Bool.true_eq_false, if_false]

theorem follow_settles (h : Settles net n hop a) :
    (follow net asked budget n hop).outcome = .ok a := by
  obtain ⟨answered, final⟩ := h
  rw [follow.eq_def]
  simp only [answered, final]

theorem follow_breaks (h : Breaks net n (budget = 0) hop) :
    ∃ failure, (follow net asked budget n hop).outcome = .error failure := by
  rw [follow.eq_def]
  cases h with
  | refused unreached =>
    simp only [unreached]
    exact ⟨_, rfl⟩
  | dropped closed =>
    simp only [closed]
    exact ⟨_, rfl⟩
  | misled answered redirect lost =>
    simp only [answered, redirect]
    split
    case h_1 => exact ⟨_, rfl⟩
    case h_2 url read =>
      cases budget with
      | zero => exact ⟨_, rfl⟩
      | succ budget =>
        have unusable := lost.resolve_left (Nat.succ_ne_zero budget) url read
        simp only [unusable, if_true]
        exact ⟨_, rfl⟩

theorem unusable_or_usable (read : Option Url) (usable : Url → Bool) :
    (∀ url, read = some url → usable url = false) ∨ ∃ url, read = some url ∧ usable url = true := by
  cases read with
  | none => exact .inl nofun
  | some url =>
    cases web : usable url with
    | false => exact .inl fun _ same => Option.some.inj same ▸ web
    | true => exact .inr ⟨url, rfl, web⟩

/-- A request is settled, leads on, or is where the chain breaks. -/
theorem settles_or_redirects_or_breaks (net : Network) (n : Nat) (exhausted : Prop) (hop : Hop) :
    (∃ a, Settles net n hop a) ∨ (¬ exhausted ∧ ∃ next, Redirects net n hop next) ∨
      Breaks net n exhausted hop := by
  match answered : net.reply? n hop.url.origin with
  | none => exact .inr (.inr (.refused answered))
  | some .closed => exact .inr (.inr (.dropped answered))
  | some (.answer a) =>
    cases redirect : hop.redirect? a with
    | none => exact .inl ⟨a, answered, redirect⟩
    | some place =>
      rcases unusable_or_usable (Url.ofText? place.toText) (·.isWeb) with
        unusable | ⟨url, read, web⟩
      · exact .inr (.inr (.misled answered redirect (.inr unusable)))
      by_cases last : exhausted
      · exact .inr (.inr (.misled answered redirect (.inl last)))
      · exact .inr (.inl ⟨last, _, a, place, url, answered, redirect, read, web, rfl⟩)

/-! ## A chain of requests -/

/-- One comes by `k` redirects from one request, the `n`-th, to another one. -/
inductive Chain (net : Network) : Nat → Hop → Nat → Hop → Prop
  | here (n : Nat) (hop : Hop) : Chain net n hop 0 hop
  | onward {n k : Nat} {hop next last : Hop} (redirects : Redirects net n hop next)
      (rest : Chain net (n + 1) next k last) : Chain net n hop (k + 1) last

theorem follow_chain (chain : Chain net n hop k last) (short : k ≤ budget) :
    (follow net asked budget n hop).outcome =
      (follow net asked (budget - k) (n + k) last).outcome := by
  induction chain generalizing budget with
  | here => rfl
  | @onward n k hop next last redirects rest ih =>
    obtain ⟨budget, rfl⟩ := Nat.exists_eq_add_of_le' (Nat.one_le_of_lt short)
    rw [follow_redirects redirects, ih (Nat.le_of_succ_le_succ short), Nat.add_sub_add_right,
      Nat.add_right_comm, Nat.add_assoc]

theorem chain_ends (net : Network) (budget n : Nat) (hop : Hop) :
    ∃ k ≤ budget, ∃ last, Chain net n hop k last ∧
      ((∃ a, Settles net (n + k) last a) ∨ Breaks net (n + k) (k = budget) last) := by
  induction budget generalizing n hop with
  | zero =>
    refine ⟨0, Nat.le_refl 0, hop, .here n hop, ?_⟩
    rcases settles_or_redirects_or_breaks net n (0 = 0) hop with settles | ⟨more, -⟩ | breaks
    · exact .inl settles
    · exact absurd rfl more
    · exact .inr breaks
  | succ budget ih =>
    rcases settles_or_redirects_or_breaks net n (0 = budget + 1) hop with
      settles | ⟨-, next, redirects⟩ | breaks
    · exact ⟨0, Nat.zero_le _, hop, .here n hop, .inl settles⟩
    · obtain ⟨k, short, last, chain, ends⟩ := ih (n + 1) next
      refine ⟨k + 1, Nat.succ_le_succ short, last, .onward redirects chain, ?_⟩
      rw [Nat.add_right_cancel_iff, ← Nat.add_assoc, Nat.add_right_comm]
      exact ends
    · exact ⟨0, Nat.zero_le _, hop, .here n hop, .inr breaks⟩

theorem follow_ok_iff : (follow net asked budget n hop).outcome = .ok a ↔
    ∃ k ≤ budget, ∃ last, Chain net n hop k last ∧ Settles net (n + k) last a := by
  constructor
  · intro answered
    obtain ⟨k, short, last, chain, ⟨b, settles⟩ | breaks⟩ := chain_ends net budget n hop
    · rw [follow_chain chain short, follow_settles settles, Except.ok.injEq] at answered
      exact ⟨k, short, last, chain, answered ▸ settles⟩
    · have exhausted : (k = budget) = (budget - k = 0) := by
        rw [eq_iff_iff]
        omega
      rw [exhausted] at breaks
      obtain ⟨failure, failed⟩ :
          ∃ failure, (follow net asked (budget - k) (n + k) last).outcome = .error failure :=
        follow_breaks breaks
      rw [follow_chain chain short, failed] at answered
      cases answered
  · rintro ⟨k, short, last, chain, settles⟩
    rw [follow_chain chain short, follow_settles settles]

theorem follow_error_iff :
    (∃ failure, (follow net asked budget n hop).outcome = .error failure) ↔
      ∃ k ≤ budget, ∃ last, Chain net n hop k last ∧
        Breaks net (n + k) (k = budget) last := by
  constructor
  · rintro ⟨failure, failed⟩
    obtain ⟨k, short, last, chain, ⟨b, settles⟩ | breaks⟩ := chain_ends net budget n hop
    · rw [follow_chain chain short, follow_settles settles] at failed
      cases failed
    · exact ⟨k, short, last, chain, breaks⟩
  · rintro ⟨k, short, last, chain, breaks⟩
    have exhausted : (k = budget) = (budget - k = 0) := by
      rw [eq_iff_iff]
      omega
    rw [exhausted] at breaks
    rw [follow_chain chain short]
    exact follow_breaks breaks

/-! ## Posting a form -/

/-- The URL that is asked for: without a name and password, which are sent in a header. -/
def askedUrl (url : Url) : Url := if (credentials? url).isSome then url.withoutUser else url

/-- The request that posts the form. -/
def Hop.first (url : Url) (form : String) : Hop :=
  let whole := { askedUrl url with fragment := none }
  { url := whole
    target := whole.path.toText ++ whole.queryText
    place := Reference.ofText? whole.toText.toList
    form := some form
    user := credentials? url
    isSameHost := true
    referer := none }

/-- What the form is answered in the end, at the end of ten redirects at most. -/
def Answered (net : Network) (address form : String) (a : Answer) : Prop :=
  ∃ url, Url.ofText? address = some url ∧ (askedUrl url).isWeb = true ∧
    ∃ k ≤ 10, ∃ last, Chain net 0 (.first url form) k last ∧ Settles net k last a

/-- There is nothing to post to, or the chain breaks. -/
def Unanswered (net : Network) (address form : String) : Prop :=
  (∀ url, Url.ofText? address = some url → (askedUrl url).isWeb = false) ∨
    ∃ url, Url.ofText? address = some url ∧ (askedUrl url).isWeb = true ∧
      ∃ k ≤ 10, ∃ last, Chain net 0 (.first url form) k last ∧ Breaks net k (k = 10) last

variable {address form : String}

theorem post_eq {url : Url} (read : Url.ofText? address = some url)
    (web : (askedUrl url).isWeb = true) : post net address form =
      follow net (askedUrl url) maxRedirects 0 (.first url form) := by
  have usable : ¬ (askedUrl url).isWeb = false := by simp [web]
  unfold post
  rw [read]
  exact if_neg usable

theorem post_unusable (unusable : ∀ url, Url.ofText? address = some url →
    (askedUrl url).isWeb = false) :
    ∃ failure, (post net address form).outcome = .error failure := by
  unfold post
  cases read : Url.ofText? address with
  | none => exact ⟨_, rfl⟩
  | some url =>
    simp only [show (if (credentials? url).isSome then url.withoutUser else url).isWeb = false from
      unusable url read, if_true]
    exact ⟨_, rfl⟩

theorem post_ok_iff :
    (post net address form).outcome = .ok a ↔ Answered net address form a := by
  constructor
  · intro answered
    rcases unusable_or_usable (Url.ofText? address) (askedUrl · |>.isWeb) with
      unusable | ⟨url, read, web⟩
    · obtain ⟨failure, failed⟩ : ∃ failure, (post net address form).outcome = .error failure :=
        post_unusable unusable
      rw [failed] at answered
      cases answered
    · rw [post_eq read web, follow_ok_iff] at answered
      simp only [Nat.zero_add] at answered
      exact ⟨url, read, web, answered⟩
  · rintro ⟨url, read, web, chain⟩
    rw [post_eq read web, follow_ok_iff]
    simp only [Nat.zero_add]
    exact chain

theorem post_error_iff : (∃ failure, (post net address form).outcome = .error failure) ↔
    Unanswered net address form := by
  constructor
  · intro failed
    rcases unusable_or_usable (Url.ofText? address) (askedUrl · |>.isWeb) with
      unusable | ⟨url, read, web⟩
    · exact .inl unusable
    · rw [post_eq read web, follow_error_iff] at failed
      simp only [Nat.zero_add] at failed
      exact .inr ⟨url, read, web, failed⟩
  · rintro (unusable | ⟨url, read, web, chain⟩)
    · exact post_unusable unusable
    · rw [post_eq read web, follow_error_iff]
      simp only [Nat.zero_add]
      exact chain

theorem Answered.unique (h : Answered net address form a) (h' : Answered net address form b) :
    a = b := by
  rw [← post_ok_iff] at h h'
  exact Except.ok.inj (h.symm.trans h')

theorem unanswered_iff :
    Unanswered net address form ↔ ∀ a, ¬ Answered net address form a := by
  rw [← post_error_iff]
  simp only [← post_ok_iff]
  cases (post net address form).outcome <;> simp

end WebSub.Http
