import WebSub.Hub.Client
import WebSub.Proofs.Http.Redirects

/-!
# What the client posts

A request whose lease the client lets pass is posted to its hub, whatever comes of it, and whoever
is reached at the hub's address receives the form.
-/

namespace WebSub

namespace Http

/-- Somebody is reached at the address. -/
def Network.Reaches (net : Network) (address : String) : Prop :=
  ∃ url, Url.ofText? address = some url ∧ url.isWeb = true ∧
    (net.reply? 0 url.origin).isSome = true

variable {net : Network} {address form : String}

theorem follow_first {asked : Url} {budget sent : Nat} {hop : Hop}
    (reached : (net.reply? sent hop.url.origin).isSome = true) :
    (follow net asked budget sent hop).requests.head? = some hop.request := by
  obtain ⟨reply, met⟩ := Option.isSome_iff_exists.mp reached
  unfold follow
  rw [met]
  cases reply with
  | closed => rfl
  | answer a =>
    simp only
    split
    · rfl
    · split
      · rfl
      · split
        · rfl
        · split <;> rfl

theorem askedUrl_origin (url : Url) : (askedUrl url).origin = url.origin := by
  unfold askedUrl
  split <;> rfl

theorem askedUrl_isWeb (url : Url) : (askedUrl url).isWeb = url.isWeb := by
  unfold askedUrl
  split <;> rfl

theorem post_reaches (h : net.Reaches address) :
    ∃ first, (post net address form).requests.head? = some first ∧ first.method = "POST" ∧
      first.body = Utf8.encode form.toList := by
  obtain ⟨url, read, web, reached⟩ := h
  have met : (net.reply? 0 (Hop.first url form).url.origin).isSome = true := by
    rw [show (Hop.first url form).url.origin = url.origin from askedUrl_origin url]
    exact reached
  rw [post_eq read ((askedUrl_isWeb url).trans web), follow_first met]
  exact ⟨_, rfl, rfl, rfl⟩

end Http

namespace Hub.Client

variable {max lease : Int} {mode : Mode} {q : Request}

/-- A client with this limit lets a request for the lease pass. -/
def Admits (max lease : Int) : Prop := checkLease lease (limit max) = .ok ()

theorem admits_iff : Admits max lease ↔ 0 < lease ∧ lease ≤ limit max := by
  unfold Admits checkLease
  split
  case isTrue bad =>
    constructor
    · intro h
      cases h
    · omega
  case isFalse good => exact iff_of_true rfl (by omega)

/-- The client posts the request, and leaves the answer to the hub. -/
structure Posted (max : Int) (mode : Mode) (q : Request) : Prop where
  sent : ∀ net, (send max net mode q).requests = (Http.post net q.hubUrl (form mode q)).requests
  received : ∀ net : Http.Network, net.Reaches q.hubUrl →
    ∃ first, (send max net mode q).requests.head? = some first ∧ first.method = "POST" ∧
      first.body = Utf8.encode (form mode q).toList
  accepted : ∀ net l n, (send max net mode q).result ≠ .error (.invalidLease l n)

theorem understand_ne_invalidLease (charsets : Charset.Library) (a : Http.Answer) (l n : Int) :
    understand charsets a ≠ .error (.invalidLease l n) := by
  unfold understand
  split <;> exact nofun

theorem Admits.posted (h : Admits max q.leaseSeconds) : Posted max mode q := by
  have sent : ∀ net,
      (send max net mode q).requests = (Http.post net q.hubUrl (form mode q)).requests := by
    intro net
    unfold send
    rw [show checkLease q.leaseSeconds (limit max) = _ from h]
  refine ⟨sent, ?_, ?_⟩
  · intro net reached
    rw [sent]
    exact Http.post_reaches reached
  · intro net l n
    unfold send
    rw [show checkLease q.leaseSeconds (limit max) = _ from h]
    simp only
    split
    · exact understand_ne_invalidLease _ _ l n
    · exact nofun

/-- The secret that the hub is given, if it is given one. -/
def secretField (q : Request) : Option String := (fields .subscribe q).lookup "hub.secret"

theorem secretField_eq (q : Request) : secretField q = q.secret.filter (· ≠ "") := by
  unfold secretField fields
  cases q.secret.filter (· ≠ "") <;> rfl

end Hub.Client

end WebSub
