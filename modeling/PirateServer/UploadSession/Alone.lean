import PirateServer.UploadSession.Machine

/-! A request that no other one and no failure disturbs: what becomes of the session and what is
answered, and that this is a run of the whole system. -/
namespace PirateServer.UploadSession
open Lib Census

/-- What a request waits for. Files are read and written in one piece. -/
def Task.wants (now : Int64) (verdict : Except ApiError Unit) : Task → Act
  | arrived _ | swept _ | updating _ => .lock now
  | checked _ | reconciling _ | replying .. => .judge verdict
  | _ => .file (.ok maxFileBytes)

/-- Until the request is answered, for at most `n` steps. -/
def settle (cfg : Config) (now : Int64) (verdict : Except ApiError Unit) :
    ℕ → Slot → Task → Option (Slot × Answer)
  | _,x,.answered a => some (x,a)
  | 0,_,_ => none
  | n+1,x,t =>
    (turned cfg x t (t.wants now verdict)).bind (fun (y,t') => settle cfg now verdict n y t')

variable {cfg : Config} {now : Int64} {verdict : Except ApiError Unit} {x y : Slot} {t : Task}
  {a : Answer} {sess : Session} {n : ℕ}

lemma settle_answered : settle cfg now verdict n x (.answered a) = some (x,a) := by
  cases n <;> rfl

lemma settle_succ {t' : Task} (hopen : ∀ a, t ≠ .answered a)
    (h : turned cfg x t (t.wants now verdict) = some (y,t')) :
    settle cfg now verdict (n+1) x t = settle cfg now verdict n y t' := by
  cases t with
  | answered a => exact absurd rfl (hopen a)
  | _ => simp only [settle,h,Option.bind_some]

lemma settle_cases (h : settle cfg now verdict n x t = some (y,a)) :
    (t = .answered a ∧ y = x) ∨ ∃ m z t', n = m+1 ∧
      turned cfg x t (t.wants now verdict) = some (z,t') ∧
      settle cfg now verdict m z t' = some (y,a) := by
  by_cases hopen : ∃ b, t = .answered b
  · obtain ⟨b,rfl⟩ := hopen
    rw [settle_answered] at h
    cases h
    exact .inl ⟨rfl,rfl⟩
  · push Not at hopen
    cases n with
    | zero =>
      cases t with
      | answered b => exact absurd rfl (hopen b)
      | _ => cases h
    | succ n =>
      cases hturned : turned cfg x t (t.wants now verdict) with
      | none =>
        cases t with
        | answered b => exact absurd rfl (hopen b)
        | _ =>
          simp only [settle,hturned] at h
          cases h
      | some zt =>
        rw [settle_succ hopen hturned] at h
        exact .inr ⟨n,zt.1,zt.2,rfl,rfl,h⟩

variable {s : Sys}

lemma orderly_wants {i : ℕ} (ht : s.tasks[i]? = some t)
    (hidle : ∀ j u, s.tasks[j]? = some u → u.busy = true → j = i) :
    s.orderly cfg (.act i (t.wants now verdict)) = true := by
  cases t with
  | swept r =>
    cases r with
    | chunk r =>
      have hall : s.tasks.all (fun u => !u.busy) = true := by
        apply List.all_eq_true.mpr
        intro u hu
        obtain ⟨j,hj⟩ := List.mem_iff_getElem?.mp hu
        by_contra hbusy
        have hbusy' : u.busy = true := by simpa using hbusy
        obtain rfl := hidle j u hj hbusy'
        cases hj.symm.trans ht
        cases hbusy'
      simp [Sys.orderly,Task.wants,ht,hall]
    | _ => simp [Sys.orderly,Task.wants,ht]
  | _ => simp [Sys.orderly,Task.wants,ht]

lemma settle_run {before : List Task}
    (h : settle cfg now verdict n x t = some (y,a)) (hslot : s.slot = x)
    (htasks : s.tasks = before++[t]) (hidle : ∀ u ∈ before, u.busy = false) :
    ∃ s', Run (Sys.step cfg) (fun s l => s.orderly cfg l = true) s s' ∧ s'.slot = y ∧
      s'.tasks = before++[.answered a] := by
  induction n generalizing s x t with
  | zero =>
    obtain ⟨rfl,rfl⟩ | ⟨m,_,_,hm,_⟩ := settle_cases h
    · exact ⟨s,.refl s,hslot,htasks⟩
    · cases hm
  | succ n ih =>
    obtain ⟨rfl,rfl⟩ | ⟨m,z,t',hm,hturned,hrest⟩ := settle_cases h
    · exact ⟨s,.refl s,hslot,htasks⟩
    cases hm
    have ht : s.tasks[before.length]? = some t := by simp [htasks]
    have halone : ∀ j u, s.tasks[j]? = some u → u.busy = true → j = before.length := by
      intro j u hj hbusy
      rw [htasks] at hj
      rcases getElem?_concat_cases hj with hold | ⟨hj,_⟩
      · rw [hidle u (List.mem_of_getElem? hold)] at hbusy
        cases hbusy
      · exact hj
    have hstep : s.step cfg (.act before.length (t.wants now verdict)) =
        some (s.turn before.length t z t') := by
      simp [Sys.step,ht,hslot,hturned]
    have htasks' : (s.turn before.length t z t').tasks = before++[t'] := by
      simp [Sys.turn,htasks]
    obtain ⟨s',hrun,hslot',hdone⟩ := ih hrest rfl htasks'
    exact ⟨s',(Run.tail (.refl s) (orderly_wants ht halone) hstep).trans hrun,hslot',hdone⟩

lemma settle_request {r : Request} (h : settle cfg now verdict n s.slot (.arrived r) = some (y,a))
    (hidle : ∀ u ∈ s.tasks, u.busy = false) :
    ∃ s', Run (Sys.step cfg) (fun s l => s.orderly cfg l = true) s s' ∧ s'.slot = y ∧
      s'.tasks = s.tasks++[.answered a] := by
  let s₀ : Sys := { s with tasks := s.tasks++[.arrived r] }
  have hfirst : Run (Sys.step cfg) (fun s l => s.orderly cfg l = true) s s₀ :=
    .tail (a := .request r) (.refl s) rfl rfl
  have hslot : s₀.slot = s.slot := rfl
  have htasks : s₀.tasks = s.tasks++[.arrived r] := rfl
  obtain ⟨s',hrun,hslot',htasks'⟩ := settle_run h hslot htasks hidle
  exact ⟨s',hfirst.trans hrun,hslot',htasks'⟩

/-! A chunk. -/

lemma lockSweep_live {r : Request} (hlive : sessionIsExpired cfg sess now = false) :
    lockSweep cfg now r (some sess) = (some sess,.swept r) := by
  simp [lockSweep,hlive]

/-- A chunk at the reported offset, within the announced length. -/
structure Welcome (cfg : Config) (now : Int64) (sess : Session) (r : ChunkRequest) : Prop where
  admitted : admitCaller cfg.service r.caller = .ok ()
  offset : parseOffset r.offset = .ok sess.receivedBytes
  belongs : sess.target.belongsTo r.caller.projectId = true
  live : sessionIsExpired cfg sess now = false
  body : r.body ≠ []
  fits : sess.receivedBytes+r.body.length ≤ sess.fileBytes
  sha256 : checkSha256 cfg r = .ok ()

lemma lockChunk_welcome {r : ChunkRequest} (h : Welcome cfg now sess r)
    (hsize : sess.fileBytes < 2^64) :
    lockChunk cfg now r (some sess) =
      (some sess,.opening ⟨sess.receivedBytes,sess.receivedBytes+r.body.length,r.body⟩) := by
  have hnext : saturatingAdd sess.receivedBytes r.body.length =
      sess.receivedBytes+r.body.length := by
    have hfits := h.fits
    unfold saturatingAdd
    omega
  have hcheck : checkChunk cfg sess sess.receivedBytes r =
      .ok (sess.receivedBytes+r.body.length) := by
    simp [checkChunk,h.body,hnext,h.fits,h.sha256,Except.map]
  simp [lockChunk,h.admitted,h.offset,h.belongs,h.live,hcheck]

lemma settle_chunk {r : ChunkRequest} (verdict : Except ApiError Unit) (h : Welcome cfg now sess r)
    (hsess : x.session = some sess)
    (hplace : x.place = .temporary) (hsize : x.data.length+r.body.length ≤ maxFileBytes)
    (hu64 : sess.fileBytes < 2^64) : settle cfg now verdict 6 x (.arrived (.chunk r)) =
      some (⟨some { sess with receivedBytes := sess.receivedBytes+r.body.length, updatedAtMs := now },
        .temporary,x.data++r.body⟩,.ok (.received (sess.receivedBytes+r.body.length))) := by
  obtain ⟨session,place,data⟩ := x
  cases hsess
  cases hplace
  let c : Passed := ⟨sess.receivedBytes,sess.receivedBytes+r.body.length,r.body⟩
  have htake : r.body.take (maxFileBytes+1) = r.body := by
    apply List.take_of_length_le
    omega
  have hdrop : r.body.drop (maxFileBytes+1) = [] := by
    apply List.drop_eq_nil_of_le
    omega
  have hsweep : turned cfg ⟨some sess,.temporary,data⟩ (.arrived (.chunk r)) (.lock now) =
      some (⟨some sess,.temporary,data⟩,.swept (.chunk r)) := by
    simp [turned,locked,lockSweep_live h.live]
  have hlook : turned cfg ⟨some sess,.temporary,data⟩ (.swept (.chunk r)) (.lock now) =
      some (⟨some sess,.temporary,data⟩,.opening c) := by
    simp [turned,locked,lockChunk_welcome h hu64,c]
  have hopen : turned cfg ⟨some sess,.temporary,data⟩ (.opening c) (.file (.ok maxFileBytes)) =
      some (⟨some sess,.temporary,data⟩,.writing c r.body) := by
    simp [turned,operated,c]
  have hwrite : turned cfg ⟨some sess,.temporary,data⟩ (.writing c r.body)
      (.file (.ok maxFileBytes)) = some (⟨some sess,.temporary,data++r.body⟩,.writing c []) := by
    obtain ⟨b,bs,hbody⟩ := List.exists_cons_of_ne_nil h.body
    rw [hbody] at htake hdrop hsize ⊢
    simp only [turned,operated,htake,hdrop,if_pos hsize]
  have hsync : turned cfg ⟨some sess,.temporary,data++r.body⟩ (.writing c [])
      (.file (.ok maxFileBytes)) = some (⟨some sess,.temporary,data++r.body⟩,.updating c) := rfl
  have hupdate : turned cfg ⟨some sess,.temporary,data++r.body⟩ (.updating c) (.lock now) =
      some (⟨some { sess with receivedBytes := c.next, updatedAtMs := now },.temporary,
        data++r.body⟩,
        .answered (.ok (.received c.next))) := by
    simp [turned,locked,lockUpdate,c]
  rw [settle_succ (by simp) hsweep,settle_succ (by simp) hlook,settle_succ (by simp) hopen,
    settle_succ (by simp) hwrite,settle_succ (by simp) hsync,settle_succ (by simp) hupdate]
  exact settle_answered

end PirateServer.UploadSession
