import PirateServer.Devices.Registry

/-! How many tunnels of a session relay at the same time, and what is left of them in the registry
when they are over. -/
namespace PirateServer.Devices
open Lib ProxySession

/-- Every tunnel is sound, and the limit holds for the members of the set. -/
structure Capped (max : ℕ) (s : Sys) : Prop where
  sound : ∀ t ∈ s.tunnels, t.Sound
  scard : 0 < max → s.scard ≤ max

lemma capped_init (max : ℕ) : Capped max .init := ⟨fun _ ht => (by cases ht),fun _ => Nat.zero_le _⟩

lemma lt_of_free {max : ℕ} {s : Sys} (hmax : 0 < max) (h : s.free max = true) : s.scard < max := by
  simp only [Sys.free,Bool.not_eq_true',Bool.and_eq_false_iff,decide_eq_false_iff_not] at h
  omega

lemma scard_act {max i : ℕ} {s : Sys} {t t' : Tunnel} {a : Act} (hmax : 0 < max)
    (hs : s.scard ≤ max) (ht : s.tunnels[i]? = some t) (h : t.act (s.free max) a = some t') :
    (Sys.mk (s.tunnels.set i t')).scard ≤ max := by
  have hset := Census.total_set (fun t : Tunnel => t.member.toNat) ht t'
  simp only [Sys.scard,Census.count] at hs ⊢
  have hfree := member_act h
  cases hm' : t'.member with
  | false =>
    rw [hm',Bool.toNat_false] at hset
    omega
  | true =>
    rcases hfree hm' with hm | hfree
    · rw [hm,hm'] at hset
      omega
    · have hlt := lt_of_free hmax hfree
      simp only [Sys.scard,Census.count] at hlt
      rw [hm',Bool.toNat_true] at hset
      omega

lemma capped_step {max : ℕ} {s s' : Sys} {a : Label} (hk : Capped max s)
    (hsteady : s.steady a = true) (h : s.step max a = some s') : Capped max s' := by
  cases a with
  | openTunnel overQuic =>
    cases h
    refine ⟨fun t ht => ?_,fun hmax => ?_⟩
    · rcases List.mem_append.mp ht with ht | ht
      · exact hk.sound t ht
      · rw [List.mem_singleton.mp ht]
        exact sound_opened overQuic
    · have hscard := hk.scard hmax
      simp only [Sys.scard,Census.count] at hscard ⊢
      rw [Census.total_concat]
      exact hscard
  | act i a =>
    obtain ⟨t,ht,hmap⟩ := Option.bind_eq_some_iff.mp h
    obtain ⟨t',hact,rfl⟩ := Option.map_eq_some_iff.mp hmap
    rw [Sys.steady,ht,Option.all_some] at hsteady
    refine ⟨fun u hu => ?_,fun hmax => scard_act hmax (hk.scard hmax) ht hact⟩
    rcases List.mem_or_eq_of_mem_set hu with hu | rfl
    · exact hk.sound u hu
    · exact sound_act (hk.sound t (List.mem_of_getElem? ht)) hsteady hact

lemma effectiveMax_bounds {env : DeviceEnv} {p : StoredPolicy} {c : ℕ}
    (hcap : env.maxDevicesPerSessionCap.bind (Text.parseUnsigned 32) = some c) (hc : 0 < c)
    (hp : p.maxConcurrentDevicesPerSession ≠ some 0) :
    0 < p.effectiveMaxConcurrentDevicesPerSession env ∧
      p.effectiveMaxConcurrentDevicesPerSession env ≤ c ∧
      ∀ n, p.maxConcurrentDevicesPerSession = some n →
        p.effectiveMaxConcurrentDevicesPerSession env ≤ n := by
  simp only [StoredPolicy.effectiveMaxConcurrentDevicesPerSession,hcap,if_pos hc]
  cases hn : p.maxConcurrentDevicesPerSession with
  | none =>
    have hdefault : 0 < StoredPolicy.defaultMaxDevicesPerSessionFromEnv env := by
      unfold StoredPolicy.defaultMaxDevicesPerSessionFromEnv
      cases hd : (env.defaultMaxDevicesPerSession.bind (Text.parseUnsigned 32)).filter
          (fun n => 0 < n) with
      | none => decide
      | some d => exact of_decide_eq_true (Option.filter_eq_some_iff.mp hd).2
    exact ⟨lt_min hdefault hc,min_le_right _ _,fun n hn => by cases hn⟩
  | some m =>
    have hm : 0 < m := Nat.pos_of_ne_zero (fun h => hp (by rw [hn,h]))
    refine ⟨lt_min hm hc,min_le_right _ _,fun n hn => ?_⟩
    cases hn
    exact min_le_left _ _

/-- With a cap, and a policy that does not stand for no limit, in every run of steady steps no more
tunnels relay than the cap and the policy allow; once all of them are over the set is empty. -/
theorem devices_capped (env : DeviceEnv) (p : StoredPolicy) (c : ℕ) (s : Sys)
    (hcap : env.maxDevicesPerSessionCap.bind (Text.parseUnsigned 32) = some c) (hc : 0 < c)
    (hp : p.maxConcurrentDevicesPerSession ≠ some 0)
    (h : Run (Sys.step (p.effectiveMaxConcurrentDevicesPerSession env))
      (fun s a => s.steady a = true) .init s) : Census.count Tunnel.relays s.tunnels ≤ c ∧
      (∀ n, p.maxConcurrentDevicesPerSession = some n → Census.count Tunnel.relays s.tunnels ≤ n) ∧
      ((∀ t ∈ s.tunnels, t.finished = true) → s.scard = 0) := by
  obtain ⟨hpos,hle,hpolicy⟩ := effectiveMax_bounds hcap hc hp
  have hk := h.invariant (fun _ _ _ hI hok hs => capped_step hI hok hs) (capped_init _)
  have hrelays : Census.count Tunnel.relays s.tunnels ≤
      p.effectiveMaxConcurrentDevicesPerSession env := by
    refine le_trans ?_ (hk.scard hpos)
    exact Census.count_le_count (fun t ht => member_of_relays (hk.sound t ht))
  refine ⟨hrelays.trans hle,fun n hn => hrelays.trans (hpolicy n hn),fun hfin => ?_⟩
  apply Census.total_eq_zero
  intro t ht
  rw [not_member_of_finished (hk.sound t ht) (hfin t ht),Bool.toNat_false]

/-! A cap of one device. -/

def oneDevice : DeviceEnv := ⟨none,some "1"⟩

def devicePolicy (n : Option ℕ) : StoredPolicy := ⟨none,none,none,none,none,none,false,false,n⟩

def registered (i : ℕ) : List Label := List.replicate 4 (.act i .register)

/-- The tunnel at an index is taken out of the registry. -/
def unregistered (i : ℕ) : List Label := List.replicate 5 (.act i .unregister)

theorem devices_capped_one_device : ∃ s,
    Run (Sys.step ((devicePolicy none).effectiveMaxConcurrentDevicesPerSession oneDevice))
      (fun s a => s.steady a = true) .init s ∧
      (s.tunnels[0]?).any Tunnel.finished = true ∧ (s.tunnels[1]?).any Tunnel.relays = true ∧
      Census.count Tunnel.relays s.tunnels ≤ 1 := by
  obtain ⟨s,hr,hfirst,hsecond⟩ : ∃ s,
      Run (Sys.step ((devicePolicy none).effectiveMaxConcurrentDevicesPerSession oneDevice))
        (fun s a => s.steady a = true) .init s ∧
        (s.tunnels[0]?).any Tunnel.finished = true ∧ (s.tunnels[1]?).any Tunnel.relays = true :=
    exists_run (List.flatten [[Label.openTunnel false],registered 0,
      [.act 0 (.start true),.act 0 .touch,.act 0 .relayEnd],unregistered 0,
      [.openTunnel true],registered 1,[.act 1 (.start true),.act 1 (.announce true),
      .act 1 .redeem,.act 1 (.connect true)]]) (by decide +kernel)
  have hkept := devices_capped oneDevice (devicePolicy none) 1 s (by decide +kernel) (by decide)
    (by decide) hr
  exact ⟨s,hr,hfirst,hsecond,hkept.1⟩

theorem cap_passed :
    (∃ s, Run (Sys.step ((devicePolicy (some 0)).effectiveMaxConcurrentDevicesPerSession oneDevice))
      anyStep .init s ∧ Census.count Tunnel.relays s.tunnels = 2) ∧
    (∃ s, Run (Sys.step ((devicePolicy none).effectiveMaxConcurrentDevicesPerSession oneDevice))
      anyStep .init s ∧ Census.count Tunnel.relays s.tunnels = 2) ∧
    ∃ s, Run (Sys.step ((devicePolicy none).effectiveMaxConcurrentDevicesPerSession oneDevice))
      anyStep .init s ∧ (∀ t ∈ s.tunnels, t.finished = true) ∧ s.scard = 1 := by
  refine ⟨?_,?_,?_⟩
  · exact exists_run (List.flatten [[Label.openTunnel false,.openTunnel false],registered 0,
      registered 1,[.act 0 (.start true),.act 1 (.start true)]]) (by decide +kernel)
  · exact exists_run (List.flatten [[Label.openTunnel true],registered 0,
      [.act 0 (.start true),.act 0 (.announce true),.act 0 .redeem,.act 0 (.connect true),
      .act 0 .timeout],unregistered 0,[.openTunnel false],registered 1,
      [.act 1 (.start true)]]) (by decide +kernel)
  · exact exists_run (List.flatten [[Label.openTunnel false],List.replicate 3 (.act 0 .register),
      [.act 0 (.cancel false)]]) (by decide +kernel)

end PirateServer.Devices
