import Mathlib.Data.List.Infix
import RingScan.Proofs.Dialogue.Relabel
import RingScan.Proofs.Plan.Coverage

set_option autoImplicit false

/-! # The password stays in the bodies of logins

Two contexts that differ in nothing but the password plan in the same way, up to the bodies of the
requests that log in: with these bodies taken out, both passes are one dialogue. The password is
read at one place only, where the text of a login is made (`relabel_logIn`); all that is built upon
it, from the handshake to the collection, is the same by congruence. At that one place the password
has a second effect, though: a text with a half of a pair in it has no encoding, and is not sent. So
the passwords must be plain, and whether the login goes out is then a matter of the user name alone
(`isPlain_loginText`). -/

namespace RingScan

/-! ## Logins -/

/-- Whether a request logs a user in. -/
def Request.IsLogin (r : Request) : Prop :=
  r.method = .post ∧ Node.paths.login.toList <:+ r.url.toList

instance (r : Request) : Decidable r.IsLogin :=
  inferInstanceAs (Decidable (r.method = .post ∧ Node.paths.login.toList <:+ r.url.toList))

/-- A request as it is seen by those who must not know passwords: the body of a login is left out.
    -/
def Request.redacted (r : Request) : Request := if r.IsLogin then { r with body? := none } else r

/-- An event as it is seen by those who must not know passwords. -/
abbrev Event.redacted : Event → Event := Event.relabel Request.redacted

/-- Logins are seen without their bodies. -/
theorem redacted_login (client : Http.Client) (body : Option String) (headers : Http.Headers) :
    (client.request .post Node.paths.login body headers).redacted =
      client.request .post Node.paths.login none headers := by
  have hurl : Http.locate client.server Node.paths.login [] =
      client.server ++ Node.paths.login := rfl
  have hlogin : (client.request .post Node.paths.login body headers).IsLogin :=
    ⟨rfl, by simp [Http.Client.request, hurl]⟩
  rw [Request.redacted, if_pos hlogin]
  rfl

/-- A request whose location ends otherwise is seen as it is. -/
theorem redacted_of_getLast? {r : Request} {c : Char} (h : r.url.toList.getLast? = some c)
    (hc : c ≠ 'n') : r.redacted = r := by
  have hlogin : ¬ r.IsLogin := by
    rintro ⟨-, before, hurl⟩
    rw [← hurl, List.getLast?_append] at h
    exact hc (Option.some.inj h).symm
  rw [Request.redacted, if_neg hlogin]

/-- The requests for parts of ranges, which have bodies as well, are seen as they are. -/
theorem redacted_splits (client : Http.Client) (keyspace table : Node.Name) (body : Option String)
    (headers : Http.Headers) :
    ∀ path ∈ [Node.paths.splits keyspace table, Node.paths.splitTokens keyspace table],
      (client.request .post path body headers).redacted = client.request .post path body headers := by
  intro path hpath
  have htail : ∃ root tail : String, path = root ++ tail ∧
      tail.toList.all Text.isBlank = false ∧ tail.toList.getLast? = some 's' := by
    rcases List.mem_pair.1 hpath with rfl | rfl
    · exact ⟨_, "/splits", rfl, by decide, by decide⟩
    · exact ⟨_, "/split-tokens", rfl, by decide, by decide⟩
  obtain ⟨root, tail, rfl, hblank, hlast⟩ := htail
  have hurl : Http.locate client.server (root ++ tail) [] = client.server ++ (root ++ tail) := by
    simp [Http.locate, Text.isBlankString, hblank]
  refine redacted_of_getLast? (c := 's') ?_ (by decide)
  simp [Http.Client.request, hurl, List.getLast?_append, hlast]

/-! ## Plain texts -/

namespace Text.Surrogate

/-- Behind a character that is no mark, being plain starts anew. -/
theorem isSome_plain?_append {c : Char} (hc : c ≠ mark) (before after : List Char) :
    (plain? (before ++ c :: after)).isSome = ((plain? before).isSome && (plain? after).isSome) := by
  have hcons : plain? (c :: after) = (plain? after).map (c :: ·) := by
    simpa [hold, hc] using plain?_hold c after
  fun_induction plain? before with
  | case1 => simp [hcons]
  | case2 => simp [plain?, hc]
  | case3 d hd => simp [plain?, hd, hcons]
  | case4 rest ih => simp [plain?, ih]
  | case5 d rest hd => simp [plain?, hd]
  | case6 d e rest hd ih =>
    simp only [List.cons_append] at ih
    simp [plain?, hd, ih]

/-- A text without marks is held as it is. -/
theorem flatMap_hold_eq {cs : List Char} (h : ∀ c ∈ cs, c ≠ mark) : cs.flatMap hold = cs := by
  induction cs with
  | nil => rfl
  | cons c cs ih =>
    obtain ⟨hc, hcs⟩ := List.forall_mem_cons.1 h
    simp [List.flatMap_cons, hold, hc, ih hcs]

theorem ne_mark_of_mem_fixed {width n : Nat} {c : Char} (h : c ∈ Hex.fixed width n) :
    c ≠ mark := by
  have hdigit : ∀ d < 16, Hex.digit d ≠ mark := by decide
  induction width generalizing n with
  | zero => simp [Hex.fixed] at h
  | succ width ih =>
    rcases List.mem_append.1 h with h | h
    · exact ih h
    · rw [List.mem_singleton.1 h]
      exact hdigit _ (Nat.mod_lt _ (by decide))

/-- Characters are written one by one, and the mark is written as it is. -/
theorem flatMap_printChar_hold (c : Char) :
    (hold c).flatMap Json.printChar = (Json.printChar c).flatMap hold := by
  by_cases hc : c = mark
  · subst hc
    decide
  · have hplain : ∀ d ∈ Json.printChar c, d ≠ mark := by
      unfold Json.printChar
      iterate 7 (split; · simp [mark])
      split
      · intro d hd
        simp only [List.mem_cons] at hd
        rcases hd with rfl | rfl | hd
        · decide
        · decide
        · exact ne_mark_of_mem_fixed hd
      · simpa using hc
    rw [flatMap_hold_eq hplain]
    simp [hold, hc]

/-- What is plain stays so when it is written. -/
theorem flatMap_printChar_of_plain (cs : List Char) :
    (cs.flatMap hold).flatMap Json.printChar = (cs.flatMap Json.printChar).flatMap hold := by
  simp only [List.flatMap_assoc, flatMap_printChar_hold]

end Text.Surrogate

/-! ## The text of a login -/

open Text.Surrogate (hold isPlain isSome_plain?_append plain? plain?_eq_some_iff
  flatMap_printChar_of_plain)

/-- The text of a login. -/
def loginText (username password : String) : String :=
  String.ofList (Json.print (.obj (Wire.loginBody (.str username) (.str password))))

theorem toText_loginBody (username password : String) :
    (Wire.loginBody (.str username) (.str password)).toText = .ok (loginText username password) := by
  simp [Wire.Record.toText, Json.toText, Wire.loginBody, Json.refusal?, Json.firstMemberRefusal?,
    loginText]

/-- What comes before the password in the text of a login. -/
def loginStart (username : String) : List Char :=
  '{' :: (Json.printText "username".toList ++ ':' :: ' ' :: Json.printText username.toList ++
    ", \"password\": ".toList)

theorem toList_loginText (username password : String) :
    (loginText username password).toList =
      loginStart username ++ '"' :: (password.toList.flatMap Json.printChar ++ ['"', '}']) := by
  simp [loginText, loginStart, Json.print, Json.printMembers, Wire.loginBody, Json.printText,
    Value.commaSeparated, List.intercalate, Json.printChar]

/-- Whether the text of a login is plain is a matter of the user name, if the password is plain. -/
theorem isPlain_loginText (username : String) {password : String} (h : isPlain password = true) :
    isPlain (loginText username password) = (plain? (loginStart username)).isSome := by
  obtain ⟨cs, hcs⟩ := Option.isSome_iff_exists.1 h
  have hrest : password.toList.flatMap Json.printChar ++ ['"', '}'] =
      (cs.flatMap Json.printChar ++ ['"', '}']).flatMap hold := by
    rw [plain?_eq_some_iff.1 hcs, flatMap_printChar_of_plain, List.flatMap_append]
    rfl
  rw [isPlain, toList_loginText, isSome_plain?_append (by decide), hrest,
    plain?_eq_some_iff.2 rfl]
  simp

namespace Plan

variable {σ : Type} {c : Context} {resolve : Resolver}

/-- A context with another password. -/
def Context.withPassword (c : Context) (password? : Option String) : Context :=
  { c with password? := password? }

/-- Whether the password of a context has an encoding, if there is a user to log in at all. A
    password that is not set is empty. -/
def Context.HasPlainPassword (c : Context) : Prop :=
  c.username?.isSome = true → isPlain (c.password?.getD "") = true

instance (c : Context) : Decidable c.HasPlainPassword :=
  inferInstanceAs (Decidable (c.username?.isSome = true → isPlain (c.password?.getD "") = true))

/-! ## The handshake -/

/-- What is seen of a login: its body is left out, and whether it is sent depends on the user. -/
theorem relabel_login (n : Node) (username : String) {password : String}
    (h : isPlain password = true) :
    (n.login (.str username) (.str password)).relabel Request.redacted =
      (n.login (.str username) (.str "")).relabel Request.redacted := by
  have hempty : isPlain "" = true := rfl
  simp only [Node.login, Node.post, toText_loginBody, Dialogue.relabel_bind, Node.call,
    Dialogue.relabel_andThen, Http.Client.post, isPlain_loginText username h,
    isPlain_loginText username hempty]
  by_cases hsent : (plain? (loginStart username)).isSome = true
  · -- the errors of a request name its location only
    simp only [hsent, if_true, Http.Client.execute, Dialogue.relabel, redacted_login]
    rfl
  · simp only [hsent, Bool.false_eq_true, if_false]

/-- The password is read here only. -/
theorem relabel_logIn (h : c.HasPlainPassword) (n : Node) :
    (logIn c n).relabel Request.redacted =
      (logIn (c.withPassword none) n).relabel Request.redacted := by
  unfold logIn
  simp only [Context.withPassword]
  cases huser : c.username? with
  | none => rfl
  | some username => exact relabel_login n username (h (by simp [huser]))

theorem relabel_connect (h : c.HasPlainPassword) (host : Value) :
    (connect c host).relabel Request.redacted =
      (connect (c.withPassword none) host).relabel Request.redacted := by
  simp only [connect, Dialogue.relabel_note, Dialogue.relabel_bind, relabel_logIn h]
  rfl

/-! ## The ring -/

theorem relabel_connectToSeed (h : c.HasPlainPassword) (seeds : List String) :
    (connectToSeed c seeds).relabel Request.redacted =
      (connectToSeed (c.withPassword none) seeds).relabel Request.redacted := by
  induction seeds with
  | nil => rfl
  | cons seed rest ih =>
    simp only [connectToSeed, Dialogue.relabel_andThen, relabel_connect h]
    congr 1
    funext result
    split
    · rfl
    · exact ih
    · rfl

theorem relabel_describeRing (h : c.HasPlainPassword) :
    (describeRing c).relabel Request.redacted =
      (describeRing (c.withPassword none)).relabel Request.redacted := by
  simp only [describeRing, Dialogue.relabel_bind]
  rw [show c.seeds = (c.withPassword none).seeds from rfl, relabel_connectToSeed h]
  rfl

/-! ## The replicas -/

theorem relabel_askHost (h : c.HasPlainPassword) (t : Task) (host : Value) :
    (askHost c t host).relabel Request.redacted =
      (askHost (c.withPassword none) t host).relabel Request.redacted := by
  simp only [askHost, Dialogue.relabel_bind, Dialogue.relabel_mapError, relabel_connect h]
  rfl

theorem relabel_askHosts (h : c.HasPlainPassword) (t : Task) (asked hosts : List Value) :
    (askHosts c t asked hosts).relabel Request.redacted =
      (askHosts (c.withPassword none) t asked hosts).relabel Request.redacted := by
  induction hosts with
  | nil => rfl
  | cons host rest ih =>
    simp only [askHosts, Dialogue.relabel_andThen, relabel_askHost h]
    congr 1
    funext result
    split
    · rfl
    · exact ih
    · rfl

/-- An attempt at a task is the same one, up to the bodies of logins. -/
theorem relabel_attempt (h : c.HasPlainPassword) (resolve : Resolver) (t : Task) :
    (attempt c resolve t).relabel Request.redacted =
      (attempt (c.withPassword none) resolve t).relabel Request.redacted := by
  simp only [attempt, subSplits, Dialogue.relabel_bind]
  cases t.range.effectiveEndpoints with
  | error f => rfl
  | ok hosts =>
    simp only [relabel_askHosts h]
    rfl

/-! ## The pass -/

/-- A collection is as its attempts are. -/
theorem relabel_drain (limit workers tasks : ℕ)
    {attempt attempt' : Task → Dialogue PlanningError (List Split)}
    {view : Request → Request} (h : ∀ t, (attempt t).relabel view = (attempt' t).relabel view)
    (c : Collection) :
    (Collection.drain limit workers tasks attempt c).relabel view =
      (Collection.drain limit workers tasks attempt' c).relabel view := by
  induction c using Collection.drain.induct limit with
  | case1 c hc => rw [Collection.drain_nil hc, Collection.drain_nil hc]
  | case2 c task rest hc ih =>
    rw [Collection.drain_cons hc, Collection.drain_cons hc, Dialogue.relabel_andThen,
      Dialogue.relabel_andThen, h]
    congr 1
    funext outcome
    split
    · next next hnext => exact ih outcome next hnext
    · rfl

theorem relabel_collect (h : c.HasPlainPassword) (resolve : Resolver) (ranges : ℕ)
    (tasks : List Task) :
    (collect c resolve ranges tasks).relabel Request.redacted =
      (collect (c.withPassword none) resolve ranges tasks).relabel Request.redacted := by
  simp only [collect, Collection.run, Dialogue.relabel_bind,
    relabel_drain c.maxRetries (workersFor c tasks.length) tasks.length (relabel_attempt h resolve)]
  rfl

/-- A pass is the same one, up to the bodies of logins. -/
theorem relabel_plan (h : c.HasPlainPassword) (resolve : Resolver) :
    (plan c resolve).relabel Request.redacted =
      (plan (c.withPassword none) resolve).relabel Request.redacted := by
  simp only [plan]
  rw [show jobArc (c.withPassword none).partitioner (c.withPassword none).keyRestriction? =
    jobArc c.partitioner c.keyRestriction? from rfl]
  cases jobArc c.partitioner c.keyRestriction? with
  | error e => rfl
  | ok job? =>
    simp only [Dialogue.relabel_bind, relabel_describeRing h]
    congr 1
    funext ranges
    simp only [Context.withPassword]
    cases restrict (.int c.splitSize) job? ranges with
    | error f => rfl
    | ok tasks => exact relabel_collect h resolve ranges.length tasks

/-- **The password stays in the bodies of logins.** Two contexts that are equal but for their
    passwords, which have encodings wherever a user logs in, plan in the same way on every network
    that takes no notice of the bodies of logins: they end with the same splits or the same error,
    with all that led to it, and what they send and note is the same, in the same order, up to these
    bodies. Each attempt at a task is the same for both, too, so that it does not matter in which
    order attempts are made. The bodies of all other requests count: they are not taken out. -/
theorem password_confined (c d : Context) (resolve : Resolver)
    (h : c.withPassword none = d.withPassword none) (hc : c.HasPlainPassword)
    (hd : d.HasPlainPassword) :
    (∀ {σ : Type} (net : Dialogue.Network σ), net.Blind Request.redacted → ∀ x,
      ((plan c resolve).run net x).result = ((plan d resolve).run net x).result ∧
        ((plan c resolve).run net x).events.map Event.redacted =
          ((plan d resolve).run net x).events.map Event.redacted ∧
        ((plan c resolve).run net x).state = ((plan d resolve).run net x).state) ∧
    (∀ t, (attempt c resolve t).relabel Request.redacted =
      (attempt d resolve t).relabel Request.redacted) ∧
    ∀ (client : Http.Client) (keyspace table : Node.Name) (body : Option String)
      (headers : Http.Headers),
      ∀ path ∈ [Node.paths.splits keyspace table, Node.paths.splitTokens keyspace table],
        (client.request .post path body headers).redacted =
          client.request .post path body headers := by
  refine ⟨fun net hnet x => ?_, fun t => ?_, redacted_splits⟩
  · have hsame : (plan c resolve).relabel Request.redacted =
        (plan d resolve).relabel Request.redacted := by
      rw [relabel_plan hc, relabel_plan hd, h]
    have hrun := Dialogue.run_relabel hnet (plan c resolve) x
    rw [hsame, Dialogue.run_relabel hnet (plan d resolve) x] at hrun
    obtain ⟨hresult, hevents, hstate⟩ := Dialogue.Run.mk.inj hrun
    exact ⟨hresult.symm, hevents.symm, hstate.symm⟩
  · rw [relabel_attempt hc, relabel_attempt hd, h]

/-- A context of a user, with a password. -/
def withUser (password : String) : Context :=
  { oneSeed with username? := some "u", password? := some password }

/-- The answers to a pass of a user over a ring of one range. -/
def allAroundUser : List String :=
  let token := "\x7b\"token\": \"s\"\x7d"
  token :: allAround.take 2 ++ token :: allAround.drop 2

theorem password_confined_allAround :
    ∃ splits, ((plan (withUser "x") .ok).run replaying allAroundUser).result = .ok splits ∧
      ((plan (withUser "y") .ok).run replaying allAroundUser).result = .ok splits := by
  have hplan : ∃ splits,
      ((plan (withUser "x") .ok).run replaying allAroundUser).result = .ok splits :=
    exists_ok (by decide +kernel)
  obtain ⟨splits, hsplits⟩ := hplan
  have hblind : replaying.Blind Request.redacted := by
    rintro (_ | ⟨text, rest⟩) request <;> rfl
  have hsame := ((password_confined (withUser "x") (withUser "y") .ok rfl (by decide) (by decide)).1
    replaying hblind allAroundUser).1
  exact ⟨splits, hsplits, hsame ▸ hsplits⟩

/-- A password that is half of a pair. -/
def halfPassword : String := String.ofList (Text.Surrogate.ofCodePoint 0xd800)

/-- A network where no connection can be made. -/
def unreachable : Dialogue.Network Unit := fun _ _ => (.failure .connection, ())

/-- A password without an encoding is told from others without any login: nothing is sent, and the
    pass ends with an error of another kind. -/
theorem half_password_not_confined :
    (withUser "x").withPassword none = (withUser halfPassword).withPassword none ∧
      unreachable.Blind Request.redacted ∧
      ((plan (withUser "x") .ok).run unreachable ()).events.map Event.redacted ≠
        ((plan (withUser halfPassword) .ok).run unreachable ()).events.map Event.redacted ∧
      ((plan (withUser "x") .ok).run unreachable ()).result ≠
        ((plan (withUser halfPassword) .ok).run unreachable ()).result := by
  refine ⟨rfl, fun _ _ => rfl, by decide +kernel, fun h => ?_⟩
  have hkinds := congrArg (Except.mapError PlanningError.category?) h
  revert hkinds
  decide +kernel

end Plan

end RingScan
