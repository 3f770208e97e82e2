import GdxDispatch.Core.ClientAddress

/-! A client never reaches past its own hop.

    Whatever the client writes, the proxies append their hops after a comma, so that the walk from the right meets them
    first and stops at the rightmost one that is no upstream proxy. -/

namespace Gdx.ClientAddress
open Lib

/-! ### Texts of an address -/

theorem length_splitOn (sep : Char) (t : Text) : (t.splitOn sep).length = t.count sep + 1 := by
  induction t with
  | nil => rfl
  | cons c t ih =>
    rw [List.splitOn_cons_eq_if_modifyHead, List.count_cons]
    split
    · rw [List.length_cons, ih]
    · rw [List.length_modifyHead, ih, Nat.add_zero]

theorem mem_piece {sep c : Char} {t : Text} (hc : c ∈ t) (hne : c ≠ sep) : ∃ p ∈ t.splitOn sep, c ∈ p := by
  induction t with
  | nil => cases hc
  | cons a t ih =>
    rw [List.splitOn_cons_eq_if_modifyHead]
    rcases List.mem_cons.mp hc with rfl | hc
    · rw [if_neg (by simpa using hne)]
      cases hsplit : t.splitOn sep with
      | nil => exact absurd hsplit (by simp)
      | cons p ps => exact ⟨c :: p, List.mem_cons_self, List.mem_cons_self⟩
    · obtain ⟨p, hp, hmem⟩ := ih hc
      split
      · exact ⟨p, List.mem_cons_of_mem _ hp, hmem⟩
      · cases hsplit : t.splitOn sep with
        | nil => exact absurd hsplit (by simp)
        | cons q qs =>
          rw [hsplit] at hp
          rcases List.mem_cons.mp hp with rfl | hp
          · exact ⟨a :: p, List.mem_cons_self, List.mem_cons_of_mem _ hmem⟩
          · exact ⟨p, List.mem_cons_of_mem _ hp, hmem⟩

/-- An IPv4 text holds digits and dots only. -/
theorem parseIPv4_digits {t : Text} {ip : ℕ} (h : parseIPv4 t = some ip) : ∀ c ∈ t, c = '.' ∨ c.isDigit = true := by
  intro c hc
  by_cases hdot : c = '.'
  · exact .inl hdot
  unfold parseIPv4 at h
  dsimp only at h
  split_ifs at h with hvalid
  obtain ⟨p, hp, hmem⟩ := mem_piece hc hdot
  have hoctet := List.all_eq_true.mp hvalid.2 p hp
  simp only [validOctet, decide_eq_true_eq] at hoctet
  exact .inr (List.all_eq_true.mp hoctet.2.1 c hmem)

/-- The first part of an IPv6 text is empty or a hextet. -/
theorem partsValue_head {parts : List Text} {ip : ℕ} (h : partsValue parts = some ip) {p : Text}
    (hp : parts.head? = some p) : p = [] ∨ validHextet p = true := by
  by_cases hnil : p = []
  · exact .inl hnil
  obtain ⟨rest, rfl⟩ : ∃ rest, parts = p :: rest := by
    cases parts with
    | nil => cases hp
    | cons q rest => exact ⟨rest, by rw [Option.some.inj hp]⟩
  refine .inr ?_
  unfold partsValue at h
  split at h
  · split_ifs at h with hvalid
    exact List.all_eq_true.mp hvalid.2 p List.mem_cons_self
  · rename_i i hskips
    have hi : i ∈ skips (p :: rest) := hskips ▸ List.mem_singleton_self i
    have hpos : 0 < i := by
      have := (List.mem_filter.mp hi).2
      simp only [decide_eq_true_eq] at this
      exact this.1
    have hstart : ¬ ((p :: rest).head? = some []) := fun heq => hnil (Option.some.inj heq)
    simp only [hstart, if_false, false_and] at h
    split_ifs at h
    all_goals
      rename_i hvalid
      refine List.all_eq_true.mp hvalid.1 p ?_
      obtain ⟨k, rfl⟩ := Nat.exists_eq_succ_of_ne_zero hpos.ne'
      exact List.mem_cons_self
  · cases h

theorem expandSuffix_head {parts parts' : List Text} (hlen : 3 ≤ parts.length) (h : expandSuffix parts = some parts') :
    parts'.head? = parts.head? := by
  match parts, hlen with
  | p :: q :: rest, _ =>
    unfold expandSuffix at h
    split at h
    · cases h
      rfl
    · split_ifs at h
      · obtain ⟨ip, -, rfl⟩ := Option.map_eq_some_iff.mp h
        rfl
      · cases h
        rfl

/-- An IPv6 text holds two colons at least and does not start with a bracket. -/
theorem parseIPv6_shape {t : Text} {ip : ℕ} (h : parseIPv6 t = some ip) : 2 ≤ t.count ':' ∧ t.head? ≠ some '[' := by
  unfold parseIPv6 at h
  dsimp only at h
  split_ifs at h with hlen
  have hcount := length_splitOn ':' t
  refine ⟨by omega, fun hhead => ?_⟩
  split at h
  · cases h
  · rename_i parts hexpand
    split_ifs at h
    cases t with
    | nil => cases hhead
    | cons c t =>
      obtain rfl := Option.some.inj hhead
      have hfirst : ∃ p, parts.head? = some ('[' :: p) := by
        rw [expandSuffix_head (by omega) hexpand, List.splitOn_cons_eq_if_modifyHead, if_neg (by decide)]
        cases hsplit : t.splitOn ':' with
        | nil => exact absurd hsplit (by simp)
        | cons p ps => exact ⟨p, rfl⟩
      obtain ⟨p, hp⟩ := hfirst
      rcases partsValue_head h hp with hnil | hvalid
      · cases hnil
      · simp only [validHextet, decide_eq_true_eq] at hvalid
        have hbracket := List.all_eq_true.mp hvalid.2.1 '[' List.mem_cons_self
        revert hbracket
        decide

/-- An address carries neither port nor brackets. -/
theorem stripPort_of_address {t : Text} (h : (ipAddress t).isSome) : stripPort t = t := by
  have hshape : t.head? ≠ some '[' ∧ t.count ':' ≠ 1 := by
    unfold ipAddress at h
    split at h
    · rename_i ip hip
      have hdigits := parseIPv4_digits hip
      constructor
      · intro hhead
        have hbracket := hdigits '[' (List.mem_of_head? hhead)
        revert hbracket
        decide
      · have hcolon : ':' ∉ t := fun hmem => by
          have hdigit := hdigits ':' hmem
          revert hdigit
          decide
        rw [List.count_eq_zero.mpr hcolon]
        decide
    · by_cases hslash : '/' ∈ t
      · rw [if_pos hslash] at h
        cases h
      rw [if_neg hslash] at h
      split at h
      · cases h
      · rename_i addr hscope
        obtain ⟨ip, hip⟩ := Option.isSome_iff_exists.mp (Option.isSome_map ▸ h)
        obtain ⟨hcount, hhead⟩ := parseIPv6_shape hip
        unfold splitScope at hscope
        dsimp only at hscope
        split_ifs at hscope
        · cases hscope
          have hprefix : beforeSep '%' t <+: t := List.takeWhile_prefix _
          obtain ⟨rest, hrest⟩ := hprefix
          constructor
          · rw [← hrest]
            cases hbefore : beforeSep '%' t with
            | nil =>
              rw [hbefore] at hcount
              simp at hcount
            | cons c addr =>
              rw [hbefore] at hhead
              exact hhead
          · rw [← hrest, List.count_append]
            omega
        · cases hscope
          exact ⟨hhead, by omega⟩
  unfold stripPort
  rw [if_neg hshape.1, if_neg hshape.2]

/-! ### What the proxies append -/

/-- A hop as a proxy writes it: an address, which in a list of commas stands alone. -/
structure IsHop (t : Text) : Prop where
  address : (ipAddress t).isSome
  alone : ',' ∉ t
  trimmed : trim isSpace t = t

/-- The values of the headers after the proxies have appended hops to what was written: each as a header of its own, or
    behind the last value, a comma and some blanks. -/
inductive Appended (written : List Bytes) : List Bytes → List Bytes → Prop where
  | none : Appended written [] written
  | header {hops values : List Bytes} (b : Bytes) (h : Appended written hops values) :
      Appended written (hops ++ [b]) (values ++ [b])
  | value {hops values : List Bytes} {v : Bytes} (b blanks : Bytes) (hblanks : ∀ x ∈ blanks, x = 32)
      (h : Appended written hops (values ++ [v])) :
      Appended written (hops ++ [b]) (values ++ [v ++ 44 :: blanks ++ b])

/-- The text of all the headers. -/
def joined (values : List Bytes) : Text := latin1 (glue (bytesOf ", ".toList) values)

theorem hopsOf_append (a b : Text) : hopsOf (a ++ ',' :: b) = hopsOf a ++ hopsOf b := by
  unfold hopsOf cut
  rw [List.splitOn_append_cons_self, List.map_append, List.filter_append, List.map_append]

theorem IsHop.ne_nil {t : Text} (h : IsHop t) : t ≠ [] := by
  rintro rfl
  have haddress := h.address
  revert haddress
  decide

/-- A hop behind blanks reads as itself. -/
theorem hopsOf_hop {t blanks : Text} (h : IsHop t) (hblanks : ∀ c ∈ blanks, c = ' ') : hopsOf (blanks ++ t) = [t] := by
  have halone : ',' ∉ blanks ++ t := by
    rw [List.mem_append]
    rintro (hmem | hmem)
    · cases hblanks _ hmem
    · exact h.alone hmem
  have htrim : trim isSpace (blanks ++ t) = t := by
    induction blanks with
    | nil => exact h.trimmed
    | cons c blanks ih =>
      have hspace : isSpace c = true := by
        rw [hblanks c List.mem_cons_self]
        rfl
      rw [List.cons_append, trim_cons_blank hspace]
      refine ih (fun c hc => hblanks c (List.mem_cons_of_mem _ hc)) fun hmem => halone ?_
      exact List.mem_cons_of_mem _ hmem
  unfold hopsOf
  rw [cut_of_not_mem halone, htrim, List.filter_cons_of_pos (by simpa using h.ne_nil), List.filter_nil, List.map_singleton,
    stripPort_of_address h.address]

theorem glue_concat_append {α : Type} (gap : List α) (ps : List (List α)) (p x : List α) :
    glue gap (ps ++ [p ++ x]) = glue gap (ps ++ [p]) ++ x := by
  by_cases hnil : ps = []
  · rw [hnil]
    rfl
  · rw [glue_append hnil (by simp), glue_append hnil (by simp)]
    simp only [glue, List.append_assoc]

theorem latin1_append (a b : Bytes) : latin1 (a ++ b) = latin1 a ++ latin1 b := List.map_append

/-- The hops read are those of what was written, and then the appended ones. -/
theorem hopsOf_appended {written hops values : List Bytes} (h : Appended written hops values)
    (hhops : ∀ b ∈ hops, IsHop (latin1 b)) :
    hopsOf (joined values) = hopsOf (joined written) ++ hops.map latin1 := by
  induction h with
  | none => rw [List.map_nil, List.append_nil]
  | @header hops values b _ ih =>
    have hb := hhops b (List.mem_append_right _ List.mem_cons_self)
    rw [List.map_append, ← List.append_assoc, ← ih fun b hb => hhops b (List.mem_append_left _ hb)]
    by_cases hnil : values = []
    · rw [hnil]
      exact hopsOf_hop hb (List.forall_mem_nil _)
    · have htext : joined (values ++ [b]) = joined values ++ ',' :: (" ".toList ++ latin1 b) := by
        unfold joined
        rw [glue_append hnil (by simp), latin1_append, latin1_append, List.append_assoc]
        rfl
      rw [htext, hopsOf_append, hopsOf_hop hb (by simp)]
      rfl
  | @value hops values v b blanks hblanks _ ih =>
    have hb := hhops b (List.mem_append_right _ List.mem_cons_self)
    rw [List.map_append, ← List.append_assoc, ← ih fun b hb => hhops b (List.mem_append_left _ hb)]
    have htext : joined (values ++ [v ++ 44 :: blanks ++ b]) =
        joined (values ++ [v]) ++ ',' :: (latin1 blanks ++ latin1 b) := by
      unfold joined
      rw [List.append_assoc, glue_concat_append, latin1_append]
      exact congrArg (latin1 _ ++ ',' :: ·) (latin1_append blanks b)
    have hspaces : ∀ c ∈ latin1 blanks, c = ' ' := by
      intro c hc
      obtain ⟨x, hx, rfl⟩ := List.mem_map.mp hc
      rw [hblanks x hx]
      rfl
    rw [htext, hopsOf_append, hopsOf_hop hb hspaces]
    rfl

/-! ### The walk from the right -/

/-- The rightmost hop that is no upstream proxy. -/
def rightmostOutside (upstream : List Network) (hops : List Bytes) : Option Text :=
  (hops.map latin1).reverse.find? fun hop => inNetworks hop upstream = false

/-- The walk stops at the first hop it meets outside the upstream set. -/
theorem stepLeft_find {upstream : List Network} {host target : Text} {hops rest : List Text}
    (h : (host :: hops).find? (fun hop => inNetworks hop upstream = false) = some target) :
    stepLeft upstream host (hops ++ rest) = target := by
  induction hops generalizing host with
  | nil =>
    rw [List.find?_cons] at h
    cases hin : inNetworks host upstream with
    | true => simp [hin] at h
    | false =>
      simp only [hin, decide_true, Option.some.injEq] at h
      cases rest with
      | nil => exact h
      | cons hop rest => rw [List.nil_append, stepLeft, hin, if_neg Bool.false_ne_true, h]
  | cons hop hops ih =>
    rw [List.find?_cons] at h
    rw [List.cons_append, stepLeft]
    cases hin : inNetworks host upstream with
    | true =>
      rw [if_pos rfl]
      exact ih (by simpa [hin] using h)
    | false =>
      simp only [hin, decide_true, Option.some.injEq] at h
      rw [if_neg Bool.false_ne_true, h]

theorem resolve_appended {peer : Text} {trusted upstream : List Network} {written hops values : List Bytes}
    (hpeer : inNetworks peer trusted = true) (happended : Appended written hops values)
    (hhops : ∀ b ∈ hops, IsHop (latin1 b)) {host : Text} (hhost : rightmostOutside upstream hops = some host) :
    glue (bytesOf ", ".toList) values ≠ [] ∧ resolveClientHost peer (joined values) trusted upstream = host := by
  have hread := hopsOf_appended happended hhops
  unfold rightmostOutside at hhost
  cases hlast : (hops.map latin1).reverse with
  | nil =>
    rw [hlast] at hhost
    cases hhost
  | cons last before =>
    have hfilled : joined values ≠ [] := by
      intro hnil
      rw [hnil] at hread
      have hnone : hops.map latin1 = [] := (List.append_eq_nil_iff.mp hread.symm).2
      rw [hnone] at hlast
      cases hlast
    have hknown : peer ≠ [] := by
      rintro rfl
      have hempty : inNetworks [] trusted = false := rfl
      rw [hempty] at hpeer
      cases hpeer
    refine ⟨fun hnil => hfilled (by rw [joined, hnil]; rfl), ?_⟩
    unfold resolveClientHost
    rw [if_neg (by simp [hknown, hfilled, hpeer]), hread, List.reverse_append, hlast]
    exact stepLeft_find (hlast ▸ hhost)

/-! ### The host passed on -/

/-- The host of the client in a scope. -/
def Scope.host (scope : Scope) : Option Text := scope.client.map Prod.fst

/-- A request through a trusted peer whose headers hold what was written and the appended hops. -/
structure Forwarded (trusted : List Network) (scope : Scope) (written hops : List Bytes) : Prop where
  request : scope.type ≠ .lifespan
  peer : ∃ peer, scope.host = some peer ∧ inNetworks peer trusted = true
  appended : Appended written hops (forwardedValues scope.headers)
  hops : ∀ b ∈ hops, IsHop (latin1 b)

theorem host_set {before after : Scope} {peer host : Text} (hbefore : before.host = some peer)
    (hafter : after.host = some host) :
    (if host ≠ [] ∧ host ≠ peer then after else before).host = if host = [] then some peer else some host := by
  by_cases hnil : host = []
  · rw [if_neg fun h => h.1 hnil, if_pos hnil, hbefore]
  by_cases hsame : host = peer
  · rw [if_neg fun h => h.2 hsame, if_neg hnil, hbefore, hsame]
  · rw [if_pos ⟨hnil, hsame⟩, if_neg hnil, hafter]

/-- Passing on a request sets its host to what the resolver says, unless that is nothing. -/
theorem host_passedOn {trusted upstream : List Network} {scope : Scope} {peer : Text} {port : ℕ}
    (hrequest : scope.type ≠ .lifespan) (hclient : scope.client = some (peer, port))
    (hfilled : glue (bytesOf ", ".toList) (forwardedValues scope.headers) ≠ []) :
    (passedOn trusted upstream scope).host =
      if resolveClientHost peer (joined (forwardedValues scope.headers)) trusted upstream = [] then some peer
      else some (resolveClientHost peer (joined (forwardedValues scope.headers)) trusted upstream) := by
  have hpeer : scope.host = some peer := by
    rw [Scope.host, hclient]
    rfl
  unfold passedOn
  rw [hclient]
  cases htype : scope.type with
  | lifespan => exact absurd htype hrequest
  | http =>
    dsimp only
    rw [if_neg hfilled]
    exact host_set hpeer rfl
  | websocket =>
    dsimp only
    rw [if_neg hfilled]
    exact host_set hpeer rfl

theorem host_forwarded {trusted upstream : List Network} {scope : Scope} {written hops : List Bytes}
    (h : Forwarded trusted scope written hops) {host : Text} (hhost : rightmostOutside upstream hops = some host) :
    (passedOn trusted upstream scope).host = some host := by
  obtain ⟨peer, hpeer, htrusted⟩ := h.peer
  obtain ⟨⟨_, port⟩, hclient, rfl⟩ := Option.map_eq_some_iff.mp hpeer
  obtain ⟨hfilled, hresolved⟩ := resolve_appended htrusted h.appended h.hops hhost
  have hname : host ≠ [] := by
    obtain ⟨b, hb, rfl⟩ := List.mem_map.mp (List.mem_reverse.mp (List.mem_of_find?_eq_some hhost))
    exact (h.hops b hb).ne_nil
  rw [host_passedOn h.request hclient hfilled, hresolved, if_neg hname]

/-- Behind a peer that is not trusted the header is not read. -/
theorem host_untrusted {trusted : List Network} {scope : Scope} {peer : Text} (hpeer : scope.host = some peer)
    (htrusted : inNetworks peer trusted = false) (upstream : List Network) :
    (passedOn trusted upstream scope).host = some peer := by
  obtain ⟨⟨name, port⟩, hclient, hname⟩ := Option.map_eq_some_iff.mp hpeer
  obtain rfl : name = peer := hname
  have hresolve : ∀ text, resolveClientHost name text trusted upstream = name := by
    intro text
    unfold resolveClientHost
    rw [if_pos (.inr (.inr htrusted))]
  by_cases hfilled : glue (bytesOf ", ".toList) (forwardedValues scope.headers) = []
  · unfold passedOn
    rw [hclient]
    cases scope.type
    all_goals
      dsimp only
      try rw [if_pos hfilled]
      exact hpeer
  by_cases hrequest : scope.type = .lifespan
  · unfold passedOn
    rw [hrequest]
    exact hpeer
  · rw [host_passedOn hrequest hclient hfilled, hresolve, ite_self]

/-- The client cannot choose its own address: the host passed on is the rightmost appended hop outside the upstream set,
    whatever was written before it; and it is the peer where the peer is not trusted. -/
theorem client_cannot_choose (trusted upstream : List Network) :
    (∀ scope written hops, Forwarded trusted scope written hops →
      (∃ b ∈ hops, inNetworks (latin1 b) upstream = false) →
      ∃ host, rightmostOutside upstream hops = some host ∧ (passedOn trusted upstream scope).host = some host) ∧
    (∀ scope scope' written written' hops, Forwarded trusted scope written hops →
      Forwarded trusted scope' written' hops → (∃ b ∈ hops, inNetworks (latin1 b) upstream = false) →
      (passedOn trusted upstream scope).host = (passedOn trusted upstream scope').host) ∧
    ∀ scope peer, scope.host = some peer → inNetworks peer trusted = false →
      (passedOn trusted upstream scope).host = some peer := by
  have houtside : ∀ hops : List Bytes, (∃ b ∈ hops, inNetworks (latin1 b) upstream = false) →
      ∃ host, rightmostOutside upstream hops = some host := by
    rintro hops ⟨b, hb, hout⟩
    refine Option.isSome_iff_exists.mp (List.find?_isSome.mpr ⟨latin1 b, ?_, by simpa using hout⟩)
    exact List.mem_reverse.mpr (List.mem_map_of_mem hb)
  refine ⟨fun scope written hops h hsome => ?_, fun scope scope' written written' hops h h' hsome => ?_,
    fun scope peer hpeer htrusted => host_untrusted hpeer htrusted upstream⟩
  · obtain ⟨host, hhost⟩ := houtside hops hsome
    exact ⟨host, hhost, host_forwarded h hhost⟩
  · obtain ⟨host, hhost⟩ := houtside hops hsome
    rw [host_forwarded h hhost, host_forwarded h' hhost]

/-- A request whose client wrote an address of its own, behind a balancer and the server's proxy. -/
def spoofed : Scope :=
  ⟨.http, some ("172.18.0.1".toList, 5000),
    [(bytesOf "x-forwarded-for".toList, bytesOf "9.9.9.9:1, [::1]:2, 203.0.113.7".toList),
      (bytesOf "x-forwarded-for".toList, bytesOf "10.0.0.5".toList)]⟩

/-- The client's address as the balancer saw it, and the balancer's as the proxy saw it. -/
def seenHops : List Bytes := [bytesOf "203.0.113.7".toList, bytesOf "10.0.0.5".toList]

/-- One hop behind what was written in one header. -/
theorem appended_once (v b : Bytes) : Appended [v] [b] [v ++ 44 :: [32] ++ b] := by
  have hwritten : Appended [v] [] ([] ++ [v]) := .none
  exact .value b [32] (by simp) hwritten

/-- With the balancer's network upstream, the address the balancer saw is passed on. -/
theorem spoof_passed_by :
    (passedOn [⟨false, 2886729728, 12⟩] [⟨false, 167772160, 8⟩] spoofed).host = some "203.0.113.7".toList := by
  have hpeer : inNetworks "172.18.0.1".toList [⟨false, 2886729728, 12⟩] = true := by decide +kernel
  have hhops : ∀ b ∈ seenHops, IsHop (latin1 b) := by
    have hseen : IsHop (latin1 (bytesOf "203.0.113.7".toList)) := ⟨by decide +kernel, by decide +kernel, by decide +kernel⟩
    have hlast : IsHop (latin1 (bytesOf "10.0.0.5".toList)) := ⟨by decide +kernel, by decide +kernel, by decide +kernel⟩
    exact List.forall_mem_cons.mpr ⟨hseen, List.forall_mem_singleton.mpr hlast⟩
  have hforwarded : Forwarded [⟨false, 2886729728, 12⟩] spoofed [bytesOf "9.9.9.9:1, [::1]:2".toList] seenHops := by
    have hvalues : forwardedValues spoofed.headers =
        [bytesOf "9.9.9.9:1, [::1]:2".toList ++ 44 :: [32] ++ bytesOf "203.0.113.7".toList] ++
          [bytesOf "10.0.0.5".toList] := by decide +kernel
    refine ⟨by decide, ⟨_, rfl, hpeer⟩, ?_, hhops⟩
    rw [hvalues]
    exact .header _ (appended_once _ _)
  have hout : inNetworks (latin1 (bytesOf "203.0.113.7".toList)) [⟨false, 167772160, 8⟩] = false := by decide +kernel
  obtain ⟨host, hhost, hpassed⟩ := (client_cannot_choose [⟨false, 2886729728, 12⟩] [⟨false, 167772160, 8⟩]).1 _ _ _
    hforwarded ⟨_, List.mem_cons_self, hout⟩
  have hsame : rightmostOutside [⟨false, 167772160, 8⟩] seenHops = some "203.0.113.7".toList := by decide +kernel
  rw [hpassed, ← hhost, hsame]

end Gdx.ClientAddress
