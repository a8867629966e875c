import WebSub.Proofs.Hub.Client
import WebSub.Proofs.Text.Decimal
import WebSub.Proofs.Text.Form

/-!
# What a hub reads

A posted form is read back as the fields that it was made of, whatever characters they hold. No
value passes for another field, and requests that ask for different things are told apart.
-/

namespace WebSub

/-! ## The form on its way -/

namespace Http

/-- The request posts the form. -/
structure Request.Posts (r : Request) (form : String) : Prop where
  method : r.method = "POST"
  contentType : ("content-type", Utf8.encode Hop.formType.toList) ∈ r.headers
  body : r.body = Utf8.encode form.toList

/-- The request asks for a page and carries nothing. -/
structure Request.Asks (r : Request) : Prop where
  method : r.method = "GET"
  body : r.body = []

variable {net : Network} {asked : Url} {address form : String} {r : Request}

theorem Hop.request_posts {hop : Hop} (h : hop.form = some form) : hop.request.Posts form := by
  refine ⟨?_, ?_, ?_⟩
  · simp [Hop.request, h]
  · refine List.mem_map.mpr ⟨("content-type", Hop.formType), ?_, rfl⟩
    simp [Hop.headers, h]
  · simp [Hop.request, h]

theorem Hop.request_asks {hop : Hop} (h : hop.form = none) : hop.request.Asks := by
  refine ⟨?_, ?_⟩
  · simp [Hop.request, h]
  · simp [Hop.request, h, Utf8.encode]

theorem Hop.onward_form (hop : Hop) (a : Answer) (place : Reference) (url : Url) :
    (hop.onward a place url).form = hop.form ∨ (hop.onward a place url).form = none := by
  simp only [Hop.onward]
  split
  · exact Or.inl rfl
  · exact Or.inr rfl

theorem follow_forms (net : Network) (asked : Url) (budget sent : Nat) (hop : Hop) :
    ∀ r ∈ (follow net asked budget sent hop).requests,
      ∃ hop' : Hop, hop'.request = r ∧ (hop'.form = hop.form ∨ hop'.form = none) := by
  fun_induction follow net asked budget sent hop
  case case1 => exact fun r hr => absurd hr List.not_mem_nil
  case case7 sent hop a _ place _ url _ budget _ rest ih =>
    intro r hr
    rcases List.mem_cons.mp hr with rfl | later
    · exact ⟨hop, rfl, Or.inl rfl⟩
    · obtain ⟨hop', same, kept | dropped⟩ := ih r later
      · refine ⟨hop', same, ?_⟩
        rcases hop.onward_form a place url with here | here
        · exact Or.inl (kept.trans here)
        · exact Or.inr (kept.trans here)
      · exact ⟨hop', same, Or.inr dropped⟩
  -- Wherever else the exchange ends, its last request is the one of this hop.
  all_goals
    intro r hr
    exact ⟨_, (List.mem_singleton.mp hr).symm, Or.inl rfl⟩

theorem mem_post (h : r ∈ (post net address form).requests) : r.Posts form ∨ r.Asks := by
  unfold post at h
  split at h
  · exact absurd h List.not_mem_nil
  · rename_i url _
    dsimp only at h
    generalize (if (credentials? url).isSome = true then url.withoutUser else url) = asked at h
    split at h
    · exact absurd h List.not_mem_nil
    · obtain ⟨hop, rfl, kept | dropped⟩ := follow_forms _ _ _ _ _ r h
      · exact Or.inl (Hop.request_posts kept)
      · exact Or.inr (Hop.request_asks dropped)

end Http

namespace Hub.Client

/-! ## The fields -/

/-- What a hub is asked for. An empty secret is none. -/
structure Contents where
  mode : Mode
  topicUrl : String
  callbackUrl : String
  leaseSeconds : Int
  secret : Option String
deriving DecidableEq

def contents (mode : Mode) (q : Request) : Contents where
  mode := mode
  topicUrl := q.topicUrl
  callbackUrl := q.callbackUrl
  leaseSeconds := q.leaseSeconds
  secret := q.secret.filter (· ≠ "")

/-- The bytes are read as the fields of a request with these contents, and as nothing else. -/
structure Conveys (body : List UInt8) (c : Contents) : Prop where
  fields : ∃ lease : String,
    Form.read body =
      [("hub.mode", c.mode.name), ("hub.topic", c.topicUrl), ("hub.callback", c.callbackUrl),
        ("hub.lease_seconds", lease)] ++ (c.secret.map fun s => ("hub.secret", s)).toList ∧
    Decimal.int64? lease.toList = some c.leaseSeconds
  ascii : ∀ b ∈ body, b < 0x80

variable {max : Int} {mode mode' : Mode} {q q' : Request}

def body (mode : Mode) (q : Request) : List UInt8 := Utf8.encode (form mode q).toList

theorem read_body : Form.read (body mode q) = fields mode q := Form.read_write _

theorem Mode.name_inj (h : mode.name = mode'.name) : mode = mode' := by
  cases mode <;> cases mode' <;> first | rfl | exact absurd h (by decide)

theorem fields_inj (h : fields mode q = fields mode' q') : contents mode q = contents mode' q' := by
  simp only [fields, List.cons_append, List.nil_append, List.cons.injEq, Prod.mk.injEq,
    true_and] at h
  obtain ⟨modes, topics, callbacks, leases, secrets⟩ := h
  have seconds : q.leaseSeconds = q'.leaseSeconds := by
    have value := Decimal.integer?_toString q.leaseSeconds
    rw [leases, Decimal.integer?_toString] at value
    exact (Option.some.inj value).symm
  have secret : q.secret.filter (· ≠ "") = q'.secret.filter (· ≠ "") := by
    generalize q.secret.filter (· ≠ "") = s at secrets
    generalize q'.secret.filter (· ≠ "") = s' at secrets
    cases s <;> cases s' <;> simp_all
  unfold contents
  rw [Mode.name_inj modes, topics, callbacks, seconds, secret]

theorem fields_congr (h : contents mode q = contents mode' q') :
    fields mode q = fields mode' q' := by
  simp only [contents, Contents.mk.injEq] at h
  obtain ⟨modes, topics, callbacks, seconds, secret⟩ := h
  unfold fields
  rw [modes, topics, callbacks, seconds, secret]

theorem body_eq_iff : body mode q = body mode' q' ↔ contents mode q = contents mode' q' := by
  constructor
  · intro h
    apply fields_inj
    rw [← read_body, h, read_body]
  · intro h
    unfold body form
    rw [fields_congr h]

theorem Admits.inRange {lease : Int} (h : Admits max lease) :
    Decimal.int64Min ≤ lease ∧ lease ≤ Decimal.int64Max := by
  obtain ⟨positive, short⟩ := admits_iff.mp h
  have cut : limit max ≤ maxLeaseSeconds := Int.min_le_right _ _
  have bounds : Decimal.int64Min ≤ 0 ∧ maxLeaseSeconds ≤ Decimal.int64Max := by decide
  omega

theorem body_conveys (admitted : Admits max q.leaseSeconds) :
    Conveys (body mode q) (contents mode q) := by
  refine ⟨⟨toString q.leaseSeconds, read_body, ?_⟩, ?_⟩
  · exact Decimal.int64?_toString admitted.inRange.1 admitted.inRange.2
  · intro b hb
    have ascii : Utf8.IsAscii (form mode q).toList := Form.write_ascii (fields mode q)
    rw [body, Utf8.encode_ascii ascii] at hb
    obtain ⟨c, hc, rfl⟩ := List.mem_map.mp hb
    rw [UInt8.lt_iff_toNat_lt, Utf8.toNat_asciiByte (ascii c hc)]
    exact ascii c hc

/-! ## What reaches a hub -/

/-- Whatever a client with this limit posts for the request tells what is asked for, and only
that. -/
structure Understood (max : Int) (mode : Mode) (q : Request) : Prop where
  posted : ∀ net, (send max net mode q).requests = (Http.post net q.hubUrl (form mode q)).requests
  received : ∀ net : Http.Network, net.Reaches q.hubUrl →
    ∃ first, (send max net mode q).requests.head? = some first ∧ first.Posts (form mode q)
  /-- Behind a redirect, the form is posted again as it is or dropped. -/
  passedOn : ∀ net, ∀ r ∈ (send max net mode q).requests, r.Posts (form mode q) ∨ r.Asks
  conveyed : Conveys (body mode q) (contents mode q)
  /-- A request that asks for anything else is posted as another form. -/
  distinct : ∀ mode' q', body mode q = body mode' q' ↔ contents mode q = contents mode' q'

/-- **A hub reads exactly what it is asked for.** A request whose lease the client lets pass is
posted as ASCII text that is read as its mode, topic, callback and lease and as its secret if it has
one, in this order and without further fields. Requests that ask for different things differ. -/
theorem requests_understood (admitted : Admits max q.leaseSeconds) : Understood max mode q := by
  have posted : Posted max mode q := admitted.posted
  have passedOn : ∀ net, ∀ r ∈ (send max net mode q).requests,
      r.Posts (form mode q) ∨ r.Asks := by
    intro net r hr
    rw [posted.sent] at hr
    exact Http.mem_post hr
  refine ⟨posted.sent, ?_, passedOn, body_conveys admitted, fun mode' q' => body_eq_iff⟩
  intro net reached
  obtain ⟨first, head, method, -⟩ := posted.received net reached
  refine ⟨first, head, ?_⟩
  rcases passedOn net first (List.mem_of_mem_head? head) with posts | asks
  · exact posts
  · rw [asks.method] at method
    exact absurd method (by decide)

/-- Every separator of a form inside the values, and characters of every length. -/
theorem requests_understood_odd :
    let q : Request :=
      ⟨"http://hub.example/", "a&hub.mode=b+c%3D", "d e\r\n=ü€😀", 864000, some "&hub.secret=%00"⟩
    Admits 864000 q.leaseSeconds ∧ Understood 864000 .unsubscribe q :=
  ⟨rfl, requests_understood rfl⟩

end Hub.Client

end WebSub
