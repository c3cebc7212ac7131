import ShairportSync.Rtsp.QuotedFields
import ShairportSync.Transition.Run

/-!
# Digest authorization

With a password, no request of a connection has a handler until one has come with the right response
to the nonce of the connection.

The response is looked for between the quotes of the header, with the user name, the realm and the
URI that it has been calculated from.
-/

namespace ShairportSync

namespace Rtsp

open Player (Bytes)
open Transition

/-! ## The code -/

def realmKey : Bytes := ascii "realm="

def usernameKey : Bytes := ascii "username="

def responseKey : Bytes := ascii "response="

def uriKey : Bytes := ascii "uri="

def fieldKeys : List Bytes := [realmKey, usernameKey, responseKey, uriKey]

def hexByte (b : BitVec 8) : Bytes :=
  let digit (n : ℕ) : BitVec 8 := BitVec.ofNat 8 (if n < 10 then 48 + n else 87 + n)
  [digit (b.toNat / 16), digit (b.toNat % 16)]

section Digest

variable (md5 : Bytes → Bytes)

/-- `digest_total`, as it is printed -/
def digestTotal (password nonce method realm username uri : Bytes) : Bytes :=
  let urp := (md5 (username ++ [colon] ++ realm ++ [colon] ++ password)).flatMap hexByte
  let mu := (md5 (method ++ [colon] ++ uri)).flatMap hexByte
  (md5 (urp ++ [colon] ++ nonce ++ [colon] ++ mu)).flatMap hexByte

/-- What `rtsp_auth` makes of the header: whether it has the right response -/
def authorizes (password nonce method hdr : Bytes) : Option Bool :=
  if ¬ ascii "Digest " <+: hdr then some false
  else
    match fieldKeys.mapM fun key => strstr (key ++ [quote]) hdr with
    | none => some false
    | some fields =>
        (quotedAll fields hdr).map fun
          | some ([realm, username, response, uri], memory) =>
              decide (cString (memory.drop response) =
                digestTotal md5 password nonce method (cString (memory.drop realm))
                  (cString (memory.drop username)) (cString (memory.drop uri)))
          | _ => false

/-- The method of a request, its header `Authorization`, and what `make_nonce` returns if it is
called -/
structure AuthRequest where
  method : Bytes
  authorization : Option Bytes
  nonce : Bytes

/-- `conn->authorized`, `conn->auth_nonce`, and which requests have had a handler so far -/
structure AuthConn where
  authorized : Bool
  authNonce : Option Bytes
  handled : List Bool

def AuthConn.new : AuthConn := ⟨false, none, []⟩

/-- `rtsp_auth`: whether it returns 0, and the nonce -/
def rtspAuth (password : Option Bytes) (authNonce : Option Bytes) (req : AuthRequest) :
    Option (Bool × Option Bytes) :=
  match password, authNonce with
  | none, authNonce => some (true, authNonce)
  | some _, none => some (false, some req.nonce)
  | some password, some nonce =>
      match req.authorization with
      | none => some (false, some nonce)
      | some hdr => (authorizes md5 password nonce req.method hdr).map fun ok => (ok, some nonce)

/-- The part of `rtsp_conversation_thread_func` that decides whether a request has a handler -/
def authStep (password : Option Bytes) (conn : AuthConn) (req : AuthRequest) : Option AuthConn :=
  if conn.authorized then some { conn with handled := conn.handled ++ [true] }
  else
    (rtspAuth md5 password conn.authNonce req).map fun (ok, authNonce) =>
      ⟨ok, authNonce, conn.handled ++ [ok]⟩

end Digest

/-! ## An example -/

/-- MD5, of what the response of an example is calculated from -/
def exampleMd5 (input : Bytes) : Bytes :=
  if input = ascii "u:raop:p" then
    [179, 160, 203, 186, 60, 44, 33, 177, 24, 96, 138, 13, 109, 211, 87, 248]
  else if input = ascii "OPTIONS:*" then
    [40, 17, 190, 249, 48, 128, 249, 123, 130, 209, 191, 251, 1, 253, 39, 173]
  else
    [108, 235, 31, 58, 3, 107, 16, 251, 228, 50, 250, 84, 67, 49, 8, 39]

def exampleResponse : Bytes := ascii "6ceb1f3a036b10fbe432fa5443310827"

/-- What is between the quotes of a header of the user u, whose password is p -/
def exampleSegments : List Bytes :=
  [ascii "Digest username=", ascii "u", ascii ", realm=", ascii "raop", ascii ", uri=", ascii "*",
    ascii ", response=", exampleResponse]

def exampleNonce : Bytes := ascii "AAAAAAAAAAA="

/-- A request without a header, and one with the right response -/
def exampleRequests : List AuthRequest :=
  [⟨ascii "OPTIONS", none, exampleNonce⟩,
    ⟨ascii "OPTIONS", some (buffer (fun _ => quote) exampleSegments []), []⟩]

theorem authorizes_exampleSegments :
    authorizes exampleMd5 (ascii "p") exampleNonce (ascii "OPTIONS")
      (buffer (fun _ => quote) exampleSegments []) = some true := by
  decide +kernel

/-! ## Connections -/

section Connections

variable {md5 : Bytes → Bytes}

variable (md5) in
/-- The request has a header with the right response to this nonce. -/
def Accepts (password nonce : Bytes) (req : AuthRequest) : Prop :=
  ∃ hdr ∈ req.authorization, authorizes md5 password nonce req.method hdr = some true

/-- The nonce stays, and the request has a handler if there has been the right response. -/
theorem authStep_cases {password nonce : Bytes} {conn t : AuthConn} {req : AuthRequest}
    (hnonce : conn.authNonce = some nonce) (h : authStep md5 (some password) conn req = some t) :
    t.authNonce = some nonce ∧ t.handled = conn.handled ++ [t.authorized] ∧
      (t.authorized = true ↔ conn.authorized = true ∨ Accepts md5 password nonce req) := by
  unfold authStep at h
  split at h
  · rename_i hauthorized
    obtain rfl := Option.some.inj h
    exact ⟨hnonce, by rw [hauthorized], iff_of_true hauthorized (.inl hauthorized)⟩
  · rename_i hauthorized
    rw [hnonce, rtspAuth] at h
    cases hhdr : req.authorization with
    | none =>
        rw [hhdr] at h
        obtain rfl := Option.some.inj h
        refine ⟨rfl, rfl, iff_of_false Bool.false_ne_true ?_⟩
        rintro (hconn | ⟨hdr, hmem, -⟩)
        · exact hauthorized hconn
        · rw [hhdr] at hmem
          cases hmem
    | some hdr =>
        rw [hhdr] at h
        obtain ⟨⟨ok, authNonce⟩, hok, rfl⟩ := Option.map_eq_some_iff.mp h
        obtain ⟨ok', hok', heq⟩ := Option.map_eq_some_iff.mp hok
        obtain ⟨rfl, rfl⟩ := Prod.mk.inj heq
        refine ⟨rfl, rfl, fun htrue => .inr ⟨hdr, hhdr, ?_⟩, ?_⟩
        · rw [hok']
          exact congrArg some htrue
        · rintro (hconn | ⟨hdr', hmem, hresponse⟩)
          · exact absurd hconn hauthorized
          · obtain rfl := Option.some.inj (hhdr.symm.trans hmem)
            exact Option.some.inj (hok'.symm.trans hresponse)

theorem run_handled {password nonce : Bytes} {labels : List AuthRequest} {conn s : AuthConn}
    (hnonce : conn.authNonce = some nonce)
    (h : run (authStep md5 (some password)) conn labels = some s) :
    ∃ handled, s.handled = conn.handled ++ handled ∧ handled.length = labels.length ∧
      ∀ k < labels.length, handled[k]? = some true ↔
        conn.authorized = true ∨ ∃ req ∈ labels.take (k + 1), Accepts md5 password nonce req := by
  induction labels generalizing conn with
  | nil =>
      obtain rfl := Option.some.inj h
      exact ⟨[], (List.append_nil _).symm, rfl, fun k hk => absurd hk (Nat.not_lt_zero k)⟩
  | cons req labels ih =>
      obtain ⟨t, ht, h⟩ := run_cons_eq_some_iff.mp h
      obtain ⟨htnonce, hthandled, htauthorized⟩ := authStep_cases hnonce ht
      obtain ⟨handled, hhandled, hlength, hiff⟩ := ih htnonce h
      refine ⟨t.authorized :: handled, ?_, by rw [List.length_cons, List.length_cons, hlength], ?_⟩
      · rw [hhandled, hthandled, List.append_assoc, List.singleton_append]
      · rintro (- | k) hk
        · rw [List.getElem?_cons_zero, Option.some.injEq, htauthorized]
          simp only [zero_add, List.take_succ_cons, List.take_zero, List.mem_singleton,
            exists_eq_left]
        · rw [List.getElem?_cons_succ, hiff k (Nat.lt_of_succ_lt_succ hk), htauthorized, or_assoc]
          simp only [List.take_succ_cons, List.mem_cons, exists_eq_or_imp]

/-- On a connection with a password the first request has no handler, and another one has if and
only if it or one of those between them has had the right response to the nonce that was made for
the first. -/
theorem run_handled_iff {password : Bytes} {first : AuthRequest} {labels : List AuthRequest}
    {s : AuthConn} (h : run (authStep md5 (some password)) .new (first :: labels) = some s) :
    s.handled.length = labels.length + 1 ∧ s.handled[0]? = some false ∧
      ∀ k < labels.length, s.handled[k + 1]? = some true ↔
        ∃ req ∈ labels.take (k + 1), Accepts md5 password first.nonce req := by
  obtain ⟨t, ht, h⟩ := run_cons_eq_some_iff.mp h
  obtain rfl : ⟨false, some first.nonce, [false]⟩ = t := Option.some.inj ht
  obtain ⟨handled, hhandled, hlength, hiff⟩ := run_handled rfl h
  have hcons : s.handled = false :: handled := hhandled
  refine ⟨by rw [hcons, List.length_cons, hlength], by rw [hcons]; rfl, fun k hk => ?_⟩
  rw [hcons, List.getElem?_cons_succ, hiff k hk, or_iff_right Bool.false_ne_true]

theorem run_handled_iff_example :
    ∃ s, run (authStep exampleMd5 (some (ascii "p"))) .new exampleRequests = some s ∧
      s.handled.length = 2 ∧ s.handled[0]? = some false ∧
      ∀ k < 1, s.handled[k + 1]? = some true ↔
        ∃ req ∈ (exampleRequests.drop 1).take (k + 1),
          Accepts exampleMd5 (ascii "p") exampleNonce req := by
  have hsecond : authStep exampleMd5 (some (ascii "p")) ⟨false, some exampleNonce, [false]⟩
      ⟨ascii "OPTIONS", some (buffer (fun _ => quote) exampleSegments []), []⟩ =
        some ⟨true, some exampleNonce, [false, true]⟩ := by
    simp only [authStep, rtspAuth, authorizes_exampleSegments]
    rfl
  have hrun : run (authStep exampleMd5 (some (ascii "p"))) .new exampleRequests =
      some ⟨true, some exampleNonce, [false, true]⟩ :=
    run_cons_eq_some_iff.mpr ⟨_, rfl, run_cons_eq_some_iff.mpr ⟨_, hsecond, rfl⟩⟩
  exact ⟨_, hrun, run_handled_iff hrun⟩

end Connections

/-! ## Headers -/

section Header

variable {md5 : Bytes → Bytes} {segments : List Bytes} {last : Bytes}

/-- This segment is the first one that ends in the name, and the next one is the value. -/
structure FieldAt (segments : List Bytes) (key : Bytes) (i : ℕ) (value : Bytes) : Prop where
  findIdx_eq : segments.findIdx? (fun s => key <:+ s) = some i
  value_eq : segments[i + 1]? = some value

namespace FieldAt

variable {key key' value value' : Bytes} {i j : ℕ}

theorem exists_segment (h : FieldAt segments key i value) :
    ∃ s, segments[i]? = some s ∧ key <:+ s := by
  obtain ⟨hlt, hsuffix, -⟩ := List.findIdx?_eq_some_iff_getElem.mp h.findIdx_eq
  exact ⟨segments[i], List.getElem?_eq_getElem hlt, of_decide_eq_true hsuffix⟩

theorem ne (h : FieldAt segments key i value) (h' : FieldAt segments key' j value')
    (hkey : ¬ key <:+ key') (hkey' : ¬ key' <:+ key) : i ≠ j := by
  rintro rfl
  obtain ⟨s, hs, hsuffix⟩ := h.exists_segment
  obtain ⟨s', hs', hsuffix'⟩ := h'.exists_segment
  obtain rfl := Option.some.inj (hs.symm.trans hs')
  exact (List.suffix_or_suffix_of_suffix hsuffix hsuffix').elim hkey hkey'

/-- The position that `strstr` finds, as that of a field -/
theorem exists_position (h : FieldAt segments key i value) (hclean : ∀ s ∈ segments, Clean s)
    (hkey : quote ∉ key) (hne : key ≠ []) :
    ∃ k, strstr (key ++ [quote]) (buffer (fun _ => quote) segments last) =
        some (offset segments i + k) ∧ IsField (fun _ => quote) segments (i, k) := by
  obtain ⟨s, hs, -⟩ := h.exists_segment
  exact ⟨s.length - key.length, strstr_buffer hkey hne hclean h.findIdx_eq hs,
    ⟨s, hs, Nat.sub_le _ _⟩, ⟨value, h.value_eq⟩, .inl rfl, rfl⟩

theorem cString_value {ends : ℕ → BitVec 8} (h : FieldAt segments key i value)
    (hclean : ∀ s ∈ segments, Clean s) (hend : ends (i + 1) = 0) :
    cString ((buffer ends segments last).drop (offset segments (i + 1))) = value := by
  obtain ⟨more, hdrop⟩ := @drop_buffer ends segments last value (i + 1) h.value_eq 0 (Nat.zero_le _)
  rw [Nat.add_zero, List.drop_zero, hend] at hdrop
  rw [hdrop, cString_append (hclean value (List.mem_of_getElem? h.value_eq)).2]
  exact List.append_nil _

end FieldAt

/-- The names are not at the end of the same segment. -/
theorem nodup_of_fieldAt {realm username response uri : Bytes} {a b c d : ℕ}
    (hrealm : FieldAt segments realmKey a realm)
    (husername : FieldAt segments usernameKey b username)
    (hresponse : FieldAt segments responseKey c response)
    (huri : FieldAt segments uriKey d uri) : [a, b, c, d].Nodup := by
  simp only [List.nodup_cons, List.mem_cons, List.not_mem_nil, or_false, not_or,
    not_false_eq_true, List.nodup_nil, and_true]
  refine ⟨⟨hrealm.ne husername ?_ ?_, hrealm.ne hresponse ?_ ?_, hrealm.ne huri ?_ ?_⟩,
    ⟨husername.ne hresponse ?_ ?_, husername.ne huri ?_ ?_⟩, hresponse.ne huri ?_ ?_⟩ <;> decide

/-- A header with the four fields, in any order and with any others, has the right response if it is
that of the password and of what is between the quotes. That is so unless the second quote of one of
the fields, in the order in which they are looked for, is the first one of another: this one is not
found any more, and what is read then is not in the header. -/
theorem authorizes_buffer {realm username response uri : Bytes} {a b c d : ℕ}
    (password nonce method : Bytes) (hclean : ∀ s ∈ segments, Clean s)
    (hdigest : ascii "Digest " <+: buffer (fun _ => quote) segments last)
    (hrealm : FieldAt segments realmKey a realm)
    (husername : FieldAt segments usernameKey b username)
    (hresponse : FieldAt segments responseKey c response)
    (huri : FieldAt segments uriKey d uri) :
    authorizes md5 password nonce method (buffer (fun _ => quote) segments last) =
      if [a, b, c, d].Pairwise (fun i j => j ≠ i + 1) then
        some (decide (response = digestTotal md5 password nonce method realm username uri))
      else none := by
  obtain ⟨ka, ha, hfa⟩ := @hrealm.exists_position _ last _ _ _ hclean (by decide) (by decide)
  obtain ⟨kb, hb, hfb⟩ := @husername.exists_position _ last _ _ _ hclean (by decide) (by decide)
  obtain ⟨kc, hc, hfc⟩ := @hresponse.exists_position _ last _ _ _ hclean (by decide) (by decide)
  obtain ⟨kd, hd, hfd⟩ := @huri.exists_position _ last _ _ _ hclean (by decide) (by decide)
  have hfound : (fieldKeys.mapM fun key =>
      strstr (key ++ [quote]) (buffer (fun _ => quote) segments last)) =
        some ([(a, ka), (b, kb), (c, kc), (d, kd)].map fun field =>
          offset segments field.1 + field.2) := by
    simp only [fieldKeys, List.mapM_cons, List.mapM_nil, ha, hb, hc, hd]
    rfl
  have hfields : ∀ field ∈ [(a, ka), (b, kb), (c, kc), (d, kd)],
      IsField (fun _ => quote) segments field := by
    simp only [List.forall_mem_cons, List.not_mem_nil, false_implies, implies_true, and_true]
    exact ⟨hfa, hfb, hfc, hfd⟩
  have hnodup : ([(a, ka), (b, kb), (c, kc), (d, kd)].map Prod.fst).Nodup :=
    nodup_of_fieldAt hrealm husername hresponse huri
  have hapart : Apart (fun _ => quote) [(a, ka), (b, kb), (c, kc), (d, kd)] ↔
      [a, b, c, d].Pairwise fun i j => j ≠ i + 1 := by
    show _ ↔ ([(a, ka), (b, kb), (c, kc), (d, kd)].map Prod.fst).Pairwise fun i j => j ≠ i + 1
    rw [List.pairwise_map]
    exact and_iff_right fun _ _ => rfl
  obtain ⟨hnone, hsome⟩ := @quotedAll_buffer segments last _ _ hclean hfields hnodup
  rw [hapart] at hnone hsome
  rw [authorizes, if_neg (not_not.mpr hdigest), hfound]
  dsimp only
  split_ifs with hpairwise
  · obtain ⟨ends, -, hended, heq⟩ := hsome hpairwise
    simp only [List.forall_mem_cons] at hended
    obtain ⟨hea, heb, hec, hed, -⟩ := hended
    rw [heq, Option.map_some]
    simp only [List.map_cons, List.map_nil, hrealm.cString_value hclean hea,
      husername.cString_value hclean heb, hresponse.cString_value hclean hec,
      huri.cString_value hclean hed]
  · rw [hnone hpairwise, Option.map_none]

theorem authorizes_buffer_example :
    authorizes exampleMd5 (ascii "p") exampleNonce (ascii "OPTIONS")
      (buffer (fun _ => quote) exampleSegments []) =
    if [2, 0, 6, 4].Pairwise (fun i j => j ≠ i + 1) then
      some (decide (exampleResponse = digestTotal exampleMd5 (ascii "p")
        exampleNonce (ascii "OPTIONS") (ascii "raop") (ascii "u") (ascii "*")))
    else none :=
  authorizes_buffer (ascii "p") exampleNonce (ascii "OPTIONS") (by decide) (by decide)
    ⟨by decide, by decide⟩ ⟨by decide, by decide⟩ ⟨by decide, by decide⟩ ⟨by decide, by decide⟩

end Header

end Rtsp

end ShairportSync
