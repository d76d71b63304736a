import SigningAgent.Action.Posts
import SigningAgent.Lib.Base64
import SigningAgent.Service.Restart

/-!
# The backend can verify what an agent signs

`GenerateKeys` (`internal/defs/keys_generator.go`) makes the keys of a registration. The public key
goes to the backend in base64, with the PUT of the API key; the private key goes in base64 to the
signer, in JSON to the store, and from there to the signer of every later process. A signature goes
to the backend in hexadecimal.

* `KeyGen`, `Bls`: the primitives. `Bls.Correct` is what their documentation promises of a generated
  key: messages can be signed with it, and the signatures verify under the public key.
* `Uploaded`: what the PUT has been answered, in each phase of a request.

**`signatures_verify`**: after a successful registration, and after every run of crashes, restarts,
refreshes and further requests, each POST of the signer carries one signature, which verifies under
the key of the PUT that the backend has answered.
-/

namespace SigningAgent.Signatures

open Action.Signer Restart Store Transition
open Service hiding State Label step

/-! ## Keys (`internal/defs/keys_generator.go`) -/

/-- `crypto.BLSKeys(crypto.NewRand(seed), nil)`, the public key first, `crypto.BLSSign` and
`crypto.BLSVerify`, with their errors. -/
structure Bls where
  keys : (seed : Bytes) → Bytes × Bytes × Option String
  sign : (m sk : Bytes) → Bytes × Option String
  verify : (m pk sig : Bytes) → Option String

/-- Signatures with a generated key are made and verify. -/
def Bls.Correct (bls : Bls) : Prop :=
  ∀ seed pk sk, bls.keys seed = (pk, sk, none) → ∀ m, ∃ sig, bls.sign m sk = (sig, none) ∧
    bls.verify m pk sig = none

/-- `sha256.Sum256`, and `btcec.PrivKeyFromBytes` with the two serializations, the private key
first. -/
structure KeyGen where
  bls : Bls
  sha256 : Bytes → Bytes
  privKeyFromBytes : Bytes → Bytes × Bytes

/-- `encode`, with `base64.StdEncoding`. -/
def encode (b : Bytes) : String := Base64.encode Base64.standard true b

/-- `GenerateKeys`, with what `randomBytes` returns. -/
def generateKeys (gen : KeyGen) (random : Except String Bytes) : Except String Keys :=
  match random with
  | .error err => .error ("failed to generate seed, err: " ++ err)
  | .ok seed =>
    match gen.bls.keys seed with
    | (_, _, some err) => .error ("failed to generate bls key, err: " ++ err)
    | (blsPublic, blsPriv, none) =>
      let (ecPrivS, ecPubS) := gen.privKeyFromBytes (gen.sha256 seed)
      .ok ⟨encode blsPublic, encode blsPriv, encode ecPubS, encode ecPrivS⟩

/-- The standard library, with its `base64.StdEncoding`. -/
def withBase64 (std : Std) : Std := { std with decodeStd := Base64.decode Base64.standard true }

theorem decode_encode (b : Bytes) : Base64.decode Base64.standard true (encode b) = some b :=
  Base64.decode_encode b

/-- The two BLS keys of a result. -/
theorem generateKeys_ok {gen : KeyGen} {random : Except String Bytes} {keys : Keys}
    (h : generateKeys gen random = .ok keys) : ∃ seed pk sk, gen.bls.keys seed = (pk, sk, none) ∧
      keys.blsKeyPub = encode pk ∧ keys.blsKeyPriv = encode sk := by
  unfold generateKeys at h
  cases random with
  | error err => cases h
  | ok seed =>
    rcases hkeys : gen.bls.keys seed with ⟨pk, sk, err⟩
    cases err with
    | some err => simp [hkeys] at h
    | none =>
      simp only [hkeys, Except.ok.injEq] at h
      exact ⟨seed, pk, sk, hkeys, h ▸ rfl, h ▸ rfl⟩

/-! ## The PUT of the API key -/

/-- The body and the URL of the PUT. -/
def putOf (req : AgentRegisterRequest) (keys : Keys) : PutAPIKey :=
  ⟨req.apiKeyID, req.workspaceID, keys.blsKeyPub, keys.ecKeyPub⟩

/-- From the PUT on, the backend has answered it. -/
def Uploaded (c : Request) : Prop :=
  match c.phase with
  | .check | .genKeys | .initiate _ | .put _ | .returned (.error _) => True
  | .setKey keys _ | .approve keys _ | .assign keys | .save keys | .name keys =>
    (c.answers.put (putOf c.req keys)).isSome
  | .returned (.ok _) => ∃ keys, c.answers.genKeys = some keys ∧
    (c.answers.put (putOf c.req keys)).isSome

section

variable {std : Std} {feedURL : String} {dec : Auth.Decoders} {c : Request} {a a' : Agent}
  {q : Service.Phase} {s s' : State} {p : Process}

/-- A call that fails claims nothing, one that succeeds comes to `next`. -/
theorem uploaded_andThen {α : Type} {x : Reg α} {next : α → Service.Phase}
    {req : AgentRegisterRequest} {answers : Answers}
    (hnext : ∀ v, (x a).1 = .ok v → Uploaded ⟨req, answers, next v⟩) :
    Uploaded ⟨req, answers, (andThen x next a).1⟩ := by
  unfold andThen
  rcases hx : x a with ⟨r, t⟩
  cases r with
  | error e => trivial
  | ok v => exact hnext v (by rw [hx])

/-- The step lemma of a request. -/
theorem Uploaded.call (hu : Uploaded c) (hw : Wrote std c a)
    (h : Service.call std feedURL c.req c.answers c.phase a = some (q, a')) :
    Uploaded { c with phase := q } := by
  obtain ⟨req, answers, phase⟩ := c
  cases phase with
  | returned r => cases h
  | check | genKeys | initiate =>
    obtain rfl := congrArg Prod.fst (Option.some.inj h)
    exact uploaded_andThen fun _ _ => trivial
  | put keys =>
    obtain rfl := congrArg Prod.fst (Option.some.inj h)
    refine uploaded_andThen fun actionID hput => ?_
    unfold updateAPIKey at hput
    split at hput
    · rename_i id hanswer
      exact Option.isSome_of_eq_some hanswer
    · cases hput
  | setKey | approve | assign | save =>
    obtain rfl := congrArg Prod.fst (Option.some.inj h)
    exact uploaded_andThen fun _ _ => hu
  | name keys =>
    obtain rfl := congrArg Prod.fst (Option.some.inj h)
    exact uploaded_andThen fun _ _ => ⟨keys, hw.1, hu⟩

/-- The step lemma of the machine. -/
theorem uploaded_step {l : Label} (hruns : ∀ p, s = .up p → Runs std p)
    (hu : ∀ p c, s = .up p → p.request = some c → Uploaded c)
    (hs : step std feedURL dec l s = some s') :
    ∀ p c, s' = .up p → p.request = some c → Uploaded c := by
  intro p' c' hp' hc'
  cases step_effect hs with
  | booted _ =>
    cases hp'
    cases hc'
  | exited | ended => cases hp'
  | started =>
    cases hp'
    cases hc'
    trivial
  | @called p c q a hc hcall =>
    cases hp'
    cases hc'
    exact (hu p c rfl hc).call ((hruns p rfl).wrote c hc) hcall
  | @ticked _ p r _ =>
    cases hp'
    exact hu p c' rfl hc'

/-- The run lemma. -/
theorem uploaded_of_reachable (hempty : std.decodeStd "" = some [])
    (hr : (machine std feedURL dec).ReachableBy (fun _ => Proper std) (.up p))
    (hc : p.request = some c) : Uploaded c := by
  have hinv := hr.invariant
    (I := fun s => (∀ p, s = .up p → Runs std p) ∧
      ∀ p c, s = .up p → p.request = some c → Uploaded c)
    ?_ fun s l s' hi hl hs =>
      ⟨Runs.step hempty hi.1 hl hs, uploaded_step hi.1 hi.2 hs⟩
  · exact hinv.2 p c rfl hc
  · rintro s ⟨kv, rfl⟩
    exact ⟨fun _ hp => (nomatch hp), fun _ _ hp => (nomatch hp)⟩

end

/-! ## The result -/

section

variable {std : Std} {feedURL : String} {dec : Auth.Decoders} {p p' : Process} {c : Request}

/-- **The backend can verify what an agent signs.** A registration with keys of `GenerateKeys` has
succeeded. In whatever process serves the agent later, each POST of the signer carries one
signature; under the public key of the PUT, which the backend has answered, it verifies for the
message that the call was to sign. A call that returns nil has had such a POST accepted. -/
theorem signatures_verify {gen : KeyGen} {random : Except String Bytes} {ls : List Label}
    (hbls : gen.bls.Correct)
    (hr : (machine (withBase64 std) feedURL dec).ReachableBy (fun _ => Proper (withBase64 std))
      (.up p))
    (hc : p.request = some c) (hok : c.phase.succeeded = true)
    (hgen : c.answers.genKeys = (generateKeys gen random).toOption)
    (hs : (machine (withBase64 std) feedURL dec).run ls (.up p) = some (.up p')) :
    ∃ put pk, (c.answers.put put).isSome ∧ put.apiKeyID = c.req.apiKeyID ∧
      put.workspaceID = c.req.workspaceID ∧
      Base64.decode Base64.standard true put.blsPublicKey = some pk ∧
      ∀ (w : World) (call : Call), w.blsSign = gen.bls.sign →
        (∀ post ∈ (exec w call p'.agent.blsPrivateKey).1.posts, ∃ actionID status m text sig,
          Signs w call actionID status m ∧ post.url = urlAction w.baseURL actionID ∧
          post.request = ⟨status, [text]⟩ ∧ hexDecode text = some sig ∧
          gen.bls.verify m pk sig = none) ∧
        ((∀ s, call ≠ .setKey s) → (exec w call p'.agent.blsPrivateKey).1.outcome = .ok () →
          ∃ post ∈ (exec w call p'.agent.blsPrivateKey).1.posts, post.exchange.ok = true) := by
  have hempty : (withBase64 std).decodeStd "" = some [] := rfl
  -- what was uploaded, and the two keys behind it
  have hu := uploaded_of_reachable hempty hr hc
  unfold Uploaded at hu
  cases hph : c.phase with
  | returned r =>
    cases r with
    | error e => simp [hph, Service.Phase.succeeded] at hok
    | ok r =>
      rw [hph] at hu
      obtain ⟨keys, hkeys, hput⟩ := hu
      have hkeysOk : generateKeys gen random = .ok keys := by
        cases hg : generateKeys gen random with
        | error e => simp [hgen, hg, Except.toOption] at hkeys
        | ok keys' =>
          rw [hgen, hg] at hkeys
          exact congrArg _ (Option.some.inj hkeys)
      obtain ⟨seed, pk, sk, hpair, hpub, hpriv⟩ := generateKeys_ok hkeysOk
      -- the signer of the later process has the private one
      have hserves : Serves (withBase64 std) (newInfo c.req keys) p'.agent :=
        (Settled.run hempty
          (settled_of_success (runs_of_reachable hempty hr p rfl) hc hok hkeys) hs).serves p' rfl
      have hkey : p'.agent.blsPrivateKey = sk := by
        have := hserves.signer
        rw [show (newInfo c.req keys).blsPrivateKey = encode sk from hpriv] at this
        exact Option.some.inj (this.symm.trans (decode_encode sk))
      refine ⟨putOf c.req keys, pk, hput, rfl, rfl, ?_, fun w call hsign =>
        ⟨fun post hpost => ?_, posts_accepted⟩⟩
      · rw [show (putOf c.req keys).blsPublicKey = encode pk from hpub]
        exact decode_encode pk
      · obtain ⟨actionID, status, m, hm, hurl, hreq⟩ := posts_signed w _ call post hpost
        obtain ⟨sig, hsig, hverify⟩ := hbls seed pk sk hpair m
        refine ⟨actionID, status, m, _, sig, hm, hurl, hreq, ?_, hverify⟩
        rw [hsign, hkey, hsig]
        exact hexDecode_hexEncode sig
  | _ => simp [hph, Service.Phase.succeeded] at hok

end

/-- A scheme whose secret key is the seed, whose public key is its start, and which appends it. -/
def sampleBls : Bls where
  keys seed := (seed.take 2, seed, none)
  sign m sk := (m ++ sk.take 2, none)
  verify m pk sig := if sig = m ++ pk then none else some "invalid signature"

def sampleGen : KeyGen := ⟨sampleBls, fun seed => seed, fun _ => (utf8 "ECD", utf8 "EC")⟩

/-- The process is up. -/
def isUp : State → Bool
  | .up _ => true
  | .down _ => false

/-- The request has succeeded, and the process can come up again. -/
def sampleRegistered : State → Bool
  | .up ⟨a, some c⟩ => c.phase.succeeded && decide (c.answers.genKeys = some sampleKeys) &&
      (((machine (withBase64 sampleStd) "feed" Auth.sampleDecoders).run [.crash, .boot bootAnswers]
        (.up ⟨a, some c⟩)).any isUp)
  | _ => false

/-- `signatures_verify` for a registration, a crash, a restart and a message of the feed. -/
theorem signatures_verify_sample : ∃ p p' pk,
    (machine (withBase64 sampleStd) "feed" Auth.sampleDecoders).run [.crash, .boot bootAnswers]
      (.up p) = some (.up p') ∧
    ∀ post ∈ (exec { sampleWorld with blsSign := sampleBls.sign }
        (.approveActionMessage "a" [7] (.answered 200 "200 OK" (some [])))
        p'.agent.blsPrivateKey).1.posts,
      ∃ m text sig, post.request = ⟨3, [text]⟩ ∧ hexDecode text = some sig ∧
        sampleBls.verify m pk sig = none := by
  obtain ⟨s, hr, hs⟩ := System.exists_reachableBy
    (M := machine (withBase64 sampleStd) "feed" Auth.sampleDecoders)
    (G := fun _ => Proper (withBase64 sampleStd)) (s := .down fun _ => none)
    (g := fun _ => sampleLabel) (fun _ l hl => by cases l <;> exact proper_sampleLabel hl)
    ⟨_, rfl⟩ registration sampleRegistered (by decide +kernel)
  rcases s with kv | ⟨a, _ | c⟩
  · cases hs
  · cases hs
  · simp only [sampleRegistered, Bool.and_eq_true, decide_eq_true_eq, Option.any_eq_true] at hs
    obtain ⟨⟨hok, hkeys⟩, s', hrun, hup⟩ := hs
    cases s' with
    | down kv => cases hup
    | up p' =>
      have hcorrect : sampleGen.bls.Correct := fun seed pk sk hpair m => by
        cases hpair
        exact ⟨m ++ seed.take 2, rfl, if_pos rfl⟩
      have hgen : c.answers.genKeys = (generateKeys sampleGen (.ok (utf8 "ABC"))).toOption :=
        hkeys.trans (by decide +kernel)
      obtain ⟨_, pk, -, -, -, -, hall⟩ := signatures_verify hcorrect hr rfl hok hgen hrun
      refine ⟨⟨a, some c⟩, p', pk, hrun, fun post hpost => ?_⟩
      obtain ⟨_, _, m, text, sig, hm, -, hreq, htext, hverify⟩ :=
        (hall { sampleWorld with blsSign := sampleBls.sign } _ rfl).1 post hpost
      cases hm
      exact ⟨_, text, sig, hreq, htext, hverify⟩

end SigningAgent.Signatures
