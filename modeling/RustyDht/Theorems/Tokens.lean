import RustyDht.Lemmas.Requests

/-!
# Announce tokens

A token is a checksum of an IP address and a secret, and the secrets are rotated. A `SecretHistory` keeps the secrets of a run, of which
the DHT itself knows the last two. Whatever the interleaving of requests and rotations, a token is good for the IP address it was given
to until the second rotation, and an announce with a token that is not good does nothing.
-/

namespace RustyDht

open DHT

/-- A DHT and the token secrets it had since it was made, the current one first. -/
structure SecretHistory (σ : Type) where
  dht : DHT σ
  secrets : List (List UInt8)

namespace SecretHistory

variable {σ : Type} {env : Env σ} {h : SecretHistory σ}

/-- A DHT that has had one secret. -/
def start (s : DHT σ) : SecretHistory σ := { dht := s, secrets := [s.tokenSecret] }

/-- The event rotates the secrets: `rotate_token_secrets` is called, and does not panic. -/
def Rotates (s : DHT σ) : Event → Prop
  | .tokenRotation _ => s.running = true ∧ s.poisoned = false
  | _ => False

instance (s : DHT σ) : ∀ e, Decidable (Rotates s e)
  | .tokenRotation _ => inferInstanceAs (Decidable (_ ∧ _))
  | .packet _ _ _ | .accept _ _ _ | .outgoing _ | .requestCleanup _ | .runSpawned _ _ _ | .response _ _ _ _ | .giveUp _
  | .sendRequest _ _ _ _ | .getInfoHashes _ | .buddyPing _ | .routerPing _ | .findNodeCount _ | .findNode _ | .ip4Maintenance _ =>
    inferInstanceAs (Decidable False)

/-- A step of the DHT, and the secret it takes if it takes one. -/
def next (env : Env σ) (h : SecretHistory σ) (e : Event) : SecretHistory σ where
  dht := step env h.dht e
  secrets := if Rotates h.dht e then (step env h.dht e).tokenSecret :: h.secrets else h.secrets

/-- The token is the one for the address, under the current secret or the one immediately before it. -/
def Good (env : Env σ) (h : SecretHistory σ) (token : List UInt8) (addr : SocketAddr) : Prop :=
  ∃ secret ∈ h.secrets.take 2, token = calculateToken env.checksumCastagnoli addr secret

/-! ## The two secrets of the DHT -/

/-- The DHT's secrets are the last two it had, or the only one twice. -/
structure Kept (h : SecretHistory σ) : Prop where
  current : h.secrets.head? = some h.dht.tokenSecret
  previous : h.dht.oldTokenSecret = h.secrets.tail.headD h.dht.tokenSecret

/-- A token that the DHT takes is a good one. -/
theorem Kept.tokenValid_iff (hk : h.Kept) (arguments : AnnouncePeerRequestArguments) (addr : SocketAddr) :
    TokenValid env h.dht arguments addr ↔ h.Good env arguments.token addr := by
  obtain ⟨older, hsecrets⟩ := List.head?_eq_some_iff.mp hk.current
  have hprevious := hk.previous
  unfold TokenValid Good
  rw [hsecrets, List.tail_cons] at hprevious
  rw [hsecrets, hprevious]
  cases older <;> simp

/-- An event that rotates no secrets leaves the two that there are. -/
theorem secrets_of_not_rotates (env : Env σ) {s : DHT σ} {e : Event} (hnot : ¬Rotates s e) :
    (step env s e).tokenSecret = s.tokenSecret ∧ (step env s e).oldTokenSecret = s.oldTokenSecret := by
  have hclosed : Closed env (fun _ => True) (fun _ => True)
      (fun t : DHT σ => t.tokenSecret = s.tokenSecret ∧ t.oldTokenSecret = s.oldTokenSecret) :=
    closed_of_lookups env (P := fun _ tokenSecret oldTokenSecret => tokenSecret = s.tokenSecret ∧ oldTokenSecret = s.oldTokenSecret)
      (fun _ _ h => h)
  cases e with
  | tokenRotation rng =>
    -- What keeps the secrets from being rotated keeps everything as it is.
    unfold step inEventLoop
    dsimp only
    by_cases hrunning : s.running = true
    · have hpoison : s.poisoned = true := Bool.eq_true_of_not_eq_false (fun hpoison => hnot ⟨hrunning, hpoison⟩)
      obtain ⟨p, hp⟩ : ∃ p, (rotateTokenSecrets rng : DHTM σ Unit).run.run s = (.error (.panic p), s) := run_lock_poisoned hpoison _
      rw [if_pos hrunning, hp]
      exact ⟨rfl, rfl⟩
    · rw [if_neg hrunning]
      exact ⟨rfl, rfl⟩
  | _ => exact hclosed.step_of_valid (fun _ _ => trivial) ⟨rfl, rfl⟩ _ (fun _ _ _ _ _ _ _ _ _ h => h) (fun _ he => nomatch he)

/-- A rotation makes the current secret the previous one. -/
theorem secrets_of_rotates {s : DHT σ} {e : Event} (hrotates : Rotates s e) : (step env s e).oldTokenSecret = s.tokenSecret := by
  cases e with
  | tokenRotation rng =>
    have hrun : (rotateTokenSecrets rng : DHTM σ Unit).run.run s = (.ok (), { s with
        oldTokenSecret := s.tokenSecret, tokenSecret := makeTokenSecret s.settings.tokenSecretSize rng }) :=
      run_lock hrotates.2 rfl
    unfold step inEventLoop
    dsimp only
    rw [if_pos hrotates.1, hrun]
  | _ => exact hrotates.elim

/-- Every event keeps that the DHT's secrets are the last two. -/
theorem kept_next (hk : h.Kept) (e : Event) : (h.next env e).Kept := by
  by_cases hrotates : Rotates h.dht e
  · refine ⟨?_, ?_⟩
    · unfold SecretHistory.next
      rw [if_pos hrotates, List.head?_cons]
    · obtain ⟨older, hsecrets⟩ := List.head?_eq_some_iff.mp hk.current
      unfold SecretHistory.next
      rw [if_pos hrotates, List.tail_cons, hsecrets]
      exact secrets_of_rotates hrotates
  · obtain ⟨hcurrent, hprevious⟩ := secrets_of_not_rotates env hrotates
    unfold SecretHistory.next
    rw [if_neg hrotates]
    exact ⟨hk.current.trans (congrArg some hcurrent.symm), by rw [hprevious, hcurrent]; exact hk.previous⟩

/-! ## Every run -/

/-- Every announce with the token from the IP address that the loop gets to handle next is accepted. -/
def Takes (env : Env σ) (h : SecretHistory σ) (token : List UInt8) (ip : IpAddr) : Prop :=
  ∀ msg arguments addr throttled now shuffle, h.dht.NextRequest msg (.announcePeerRequest arguments) addr →
    arguments.token = token → addr.ip = ip → h.dht.Handles throttled addr →
    AnnounceAccepted h.dht (step env h.dht (.accept throttled now shuffle)) msg arguments addr (now 1)

/-- Tokens guard the peer storage. -/
structure Guarded (env : Env σ) (h : SecretHistory σ) : Prop where
  /-- An announce is accepted only with a token that is good for where it comes from; otherwise it does nothing. -/
  onlyGood : ∀ msg arguments addr throttled now shuffle, h.dht.NextRequest msg (.announcePeerRequest arguments) addr →
    AnnounceAccepted h.dht (step env h.dht (.accept throttled now shuffle)) msg arguments addr (now 1) ∧
        h.Good env arguments.token addr ∨
      Unanswered h.dht (step env h.dht (.accept throttled now shuffle))
  /-- A token that get_peers gives is taken until the secrets have been rotated twice. -/
  livesOn : ∀ throttled now shuffle arguments addr response,
    RepliesGetPeers env h.dht throttled now shuffle arguments addr response → ∀ later,
    (Machine.run (next env) h (.accept throttled now shuffle :: later)).secrets.length ≤ h.secrets.length + 1 →
    (Machine.run (next env) h (.accept throttled now shuffle :: later)).Takes env response.token addr.ip

/-- The tokens of two addresses with one IP address are the same. -/
theorem calculateToken_congr (checksumCastagnoli : List UInt8 → UInt32) {addr addr' : SocketAddr} (hip : addr.ip = addr'.ip)
    (secret : List UInt8) : calculateToken checksumCastagnoli addr secret = calculateToken checksumCastagnoli addr' secret := by
  unfold calculateToken
  rw [hip]

/-- The secrets of a run are those there were before, and newer ones. -/
theorem run_secrets (env : Env σ) (h : SecretHistory σ) (events : List Event) :
    ∃ newer, (Machine.run (next env) h events).secrets = newer ++ h.secrets := by
  refine Machine.run_invariant (next env) (P := fun h' => ∃ newer, h'.secrets = newer ++ h.secrets) ?_ events h ⟨[], rfl⟩
  rintro h' e ⟨newer, hnewer⟩
  by_cases hrotates : Rotates h'.dht e
  · exact ⟨(step env h'.dht e).tokenSecret :: newer, by rw [next, if_pos hrotates, hnewer, List.cons_append]⟩
  · exact ⟨newer, by rw [next, if_neg hrotates, hnewer]⟩

/-- A good token is taken. -/
theorem Kept.takes (hk : h.Kept) {token : List UInt8} {addr : SocketAddr} (hgood : h.Good env token addr)
    (hip : addr.ip.Checkable) : h.Takes env token addr.ip := by
  rintro msg arguments addr' throttled now shuffle hnext rfl hip' hhandles
  obtain ⟨secret, hsecret, htoken⟩ := hgood
  have hgood' : h.Good env arguments.token addr' :=
    ⟨secret, hsecret, htoken.trans (calculateToken_congr env.checksumCastagnoli hip'.symm secret)⟩
  exact step_accept_announce hnext ⟨hhandles, hip' ▸ hip, trivial⟩ ((hk.tokenValid_iff arguments addr').mpr hgood') now shuffle

/-- Where the DHT's secrets are the last two, they guard the peer storage. -/
theorem Kept.guarded (hk : h.Kept) : h.Guarded env where
  onlyGood msg arguments addr throttled now shuffle hnext := by
    by_cases htoken : TokenValid env h.dht arguments addr
    · by_cases hanswers : h.dht.Answers throttled (.announcePeerRequest arguments) addr
      · exact .inl ⟨step_accept_announce hnext hanswers htoken now shuffle, (hk.tokenValid_iff arguments addr).mp htoken⟩
      · exact .inr (step_accept_of_not_answers hnext hanswers now)
    · exact .inr (step_accept_announce_none hnext htoken throttled now shuffle)
  livesOn throttled now shuffle arguments addr response hreplies later hlength := by
    obtain ⟨hanswers, msg, hresponse⟩ := hreplies.eq_answer
    obtain ⟨older, hsecrets⟩ := List.head?_eq_some_iff.mp hk.current
    obtain ⟨newer, hnewer⟩ := run_secrets env h (.accept throttled now shuffle :: later)
    have hkept := Machine.run_invariant (next env) (P := Kept) (fun _ e hk => kept_next hk e)
      (.accept throttled now shuffle :: later) h hk
    refine hkept.takes ⟨h.dht.tokenSecret, ?_, ?_⟩ hanswers.checkable
    · -- At most one secret is newer than the one the token was made with.
      rw [hnewer, List.length_append] at hlength
      rw [hnewer, hsecrets]
      rcases newer with _ | ⟨secret, _ | ⟨secret', newer⟩⟩
      · simp
      · simp
      · simp only [List.length_cons] at hlength
        omega
    · cases hresponse
      rfl

/-- In every run of a new DHT, an announce is accepted only if its token is the one for its own IP address under the current or the
immediately previous secret, and is otherwise neither stored nor answered; and the token of every get_peers reply is taken in every
announce from the IP address it was sent to, whatever the port and the info hash, before which there was at most one rotation. -/
theorem run_guarded (env : Env σ) {id : Option Id} {ip4Source : σ} {buckets : NodeBucketStorage} {settings : DHTSettings}
    {rng secretRng : Nat → UInt8} {random : Id} {s : DHT σ}
    (hnew : new env id ip4Source buckets settings rng secretRng random = .ok s) (events : List Event) :
    (Machine.run (next env) (start s) events).Guarded env := by
  have hstart : (start s).Kept := ⟨rfl, (new_eq_ok hnew).2.2.2.1⟩
  exact (Machine.run_invariant (next env) (P := Kept) (fun _ e hk => kept_next hk e) events (start s) hstart).guarded

/-- A node gets a token, the secrets are rotated, and the node announces itself from another port: the peer is stored. -/
theorem run_guarded_after_rotation :
    AnnounceAccepted
      (Machine.run (next sampleEnv) (start sampleDht) ([.packet samplePeersPacket ⟨127, 0, 0, 1⟩ 6881] ++
        [.accept false sampleClock sampleShuffle, .tokenRotation (fun _ => 1), .packet sampleAnnouncePacket ⟨127, 0, 0, 1⟩ 6882])).dht
      (step sampleEnv (Machine.run (next sampleEnv) (start sampleDht) ([.packet samplePeersPacket ⟨127, 0, 0, 1⟩ 6881] ++
        [.accept false sampleClock sampleShuffle, .tokenRotation (fun _ => 1),
          .packet sampleAnnouncePacket ⟨127, 0, 0, 1⟩ 6882])).dht (.accept false sampleClock sampleShuffle))
      sampleAnnounce sampleAnnounceArguments (.v4 ⟨127, 0, 0, 1⟩ 6882) (sampleClock 1) := by
  have hguarded := run_guarded sampleEnv sampleDht_new [.packet samplePeersPacket ⟨127, 0, 0, 1⟩ 6881]
  have hreplies : RepliesGetPeers sampleEnv
      (Machine.run (next sampleEnv) (start sampleDht) [.packet samplePeersPacket ⟨127, 0, 0, 1⟩ 6881]).dht false sampleClock
      sampleShuffle samplePeersArguments (.v4 ⟨127, 0, 0, 1⟩ 6881) ⟨Id.zero, sampleToken, .nodes []⟩ :=
    ⟨samplePeersRequest, replyTo samplePeersRequest (.v4 ⟨127, 0, 0, 1⟩ 6881) (.getPeersResponse ⟨Id.zero, sampleToken, .nodes []⟩),
      ⟨by decide +kernel, rfl⟩, rfl, by decide +kernel⟩
  rw [Machine.run_append]
  exact hguarded.livesOn _ _ _ _ _ _ hreplies [.tokenRotation (fun _ => 1), .packet sampleAnnouncePacket ⟨127, 0, 0, 1⟩ 6882]
    (by decide +kernel) _ _ _ _ _ _ ⟨by decide +kernel, rfl⟩ rfl rfl
    ⟨by decide +kernel, by decide +kernel, rfl, by decide, by decide +kernel⟩

end SecretHistory

end RustyDht
