import ShadowCatalog.Command
import ShadowCatalog.Proofs.Browse.Decoding

/-!
# Requests on the command line

The parameters of a request are given on the command line as `key=value`, the table
before them on its own. An argument is cut at its first equals sign, so that a value may
have equals signs in it and a key may not: the arguments made from parameters are the
arguments of these parameters as long as no key has one (`mapM_parameter_eq_ok_iff`).

With it, how requests are decoded is put together
(`BrowseRequest.decodes_and_presents`): what parameters are decoded to, when this fails,
that the place of the reserved parameters among the filters makes no difference, and that
a request comes back from its parameters and from the command line.
-/

namespace ShadowCatalog

namespace Command

/-- A parameter as an argument. -/
def argument (p : String × String) : String := p.1 ++ "=" ++ p.2

/-- An argument is a parameter with no equals sign in its key. -/
theorem parameter_eq_ok_iff {text : String} {p : String × String} :
    parameter text = .ok p ↔ text = argument p ∧ '=' ∉ p.1.toList := by
  obtain ⟨key, value⟩ := p
  have htext : text = argument (key, value) ↔ key.toList ++ '=' :: value.toList = text.toList := by
    rw [argument, ← String.toList_inj, String.toList_append, String.toList_append, eq_comm,
      List.append_assoc]
    rfl
  rw [htext, ← Text.splitAt?_eq_some_iff, parameter]
  cases Text.splitAt? '=' text.toList with
  | none => simp
  | some cut =>
    rw [Except.ok.injEq, Option.some.injEq, Prod.ext_iff, Prod.ext_iff, String.ext_iff,
      String.ext_iff, String.toList_ofList, String.toList_ofList]

/-- Arguments are parameters with no equals signs in their keys. -/
theorem mapM_parameter_eq_ok_iff {arguments : List String} {parameters : List (String × String)} :
    arguments.mapM parameter = .ok parameters ↔
      arguments = parameters.map argument ∧ ∀ p ∈ parameters, '=' ∉ p.1.toList := by
  induction arguments generalizing parameters with
  | nil =>
    rw [List.mapM_nil]
    constructor
    · intro h
      obtain rfl := Except.ok.inj h
      exact ⟨rfl, List.forall_mem_nil _⟩
    · rintro ⟨h, -⟩
      obtain rfl := List.map_eq_nil_iff.1 h.symm
      rfl
  | cons text arguments ih =>
    rw [List.mapM_cons]
    constructor
    · intro h
      cases hparameter : parameter text with
      | error cause => rw [hparameter] at h; cases h
      | ok p =>
        cases hrest : arguments.mapM parameter with
        | error cause => rw [hparameter, hrest] at h; cases h
        | ok rest =>
          rw [hparameter, hrest] at h
          obtain rfl := Except.ok.inj h
          obtain ⟨htext, hp⟩ := parameter_eq_ok_iff.1 hparameter
          obtain ⟨harguments, hall⟩ := ih.1 hrest
          exact ⟨by rw [htext, harguments, List.map_cons], List.forall_mem_cons.2 ⟨hp, hall⟩⟩
    · rintro ⟨h, hall⟩
      obtain ⟨p, rest, rfl, htext, harguments⟩ := List.map_eq_cons_iff.1 h.symm
      obtain ⟨hp, hall⟩ := List.forall_mem_cons.1 hall
      rw [parameter_eq_ok_iff.2 ⟨htext.symm, hp⟩, ih.2 ⟨harguments.symm, hall⟩]
      rfl

/-- What `browse` is told to show. -/
theorem ofArguments_browse_eq_ok_iff {table : String} {arguments : List String}
    {request : BrowseRequest} :
    ofArguments ("browse" :: table :: arguments) = .ok (.browse request) ↔
      ∃ parameters : List (String × String), arguments = parameters.map argument ∧
        (∀ p ∈ parameters, '=' ∉ p.1.toList) ∧
        BrowseRequest.ofParameters (("table", table) :: parameters) = .ok request := by
  rw [ofArguments]
  constructor
  · intro h
    cases hrun : arguments.mapM parameter with
    | error cause => rw [hrun] at h; cases h
    | ok parameters =>
      obtain ⟨harguments, hfree⟩ := mapM_parameter_eq_ok_iff.1 hrun
      refine ⟨parameters, harguments, hfree, ?_⟩
      rw [hrun] at h
      simp only [Bind.bind, Except.bind] at h
      cases hrequest : BrowseRequest.ofParameters (("table", table) :: parameters) with
      | error cause => rw [hrequest] at h; cases h
      | ok other => rw [hrequest] at h; cases h; rfl
  · rintro ⟨parameters, harguments, hfree, hrequest⟩
    rw [mapM_parameter_eq_ok_iff.2 ⟨harguments, hfree⟩]
    simp only [Bind.bind, Except.bind, hrequest]
    rfl

end Command

namespace BrowseRequest

variable {request : BrowseRequest} {parameters : List (String × String)}

/-- From the command line a request comes back unless a key is cut short. -/
theorem Presents.ofArguments_eq_ok_iff
    (h : Presents (("table", request.table) :: parameters) request)
    (hrequest : Presentable request) :
    Command.ofArguments ("browse" :: request.table :: parameters.map Command.argument) =
        .ok (.browse request) ↔
      ∀ filter ∈ request.filters, '=' ∉ filter.1.toList := by
  rw [Command.ofArguments_browse_eq_ok_iff]
  constructor
  · rintro ⟨others, -, hfree, hothers⟩ filter hfilter
    cases ofParameters_eq_iff.1 hothers with
    | request _ hdescribes _ =>
      rw [hdescribes.filters] at hfilter
      obtain ⟨hmem, hname⟩ := List.mem_filter.1 hfilter
      obtain rfl | hmem := List.mem_cons.1 hmem
      · exact absurd hname (by simp [reservedNames])
      · exact hfree filter hmem
  · intro hfree
    refine ⟨parameters, rfl, fun p hp => ?_, h.ofParameters_eq hrequest⟩
    obtain hreserved | hfilter := List.mem_append.1 (h.perm.subset (List.mem_cons_of_mem _ hp))
    · have hnames : ∀ name ∈ reservedNames, '=' ∉ name.toList := by decide
      exact hnames p.1 (mem_reservedNames hreserved)
    · exact hfree p hfilter

/-- How requests are decoded: how an offset is read, and what parameters are decoded to;
    when decoding fails; that where the reserved parameters stand among the filters makes no
    difference. A request that parameters can tell is decoded from them, and from the
    command line unless an equals sign cuts the name of a filter short. -/
theorem decodes_and_presents :
    (∀ text result, offset? text = result ↔ ReadsOffset text result) ∧
    (∀ parameters result, ofParameters parameters = result ↔ Decodes parameters result) ∧
    (∀ parameters, (∃ cause, ofParameters parameters = .error cause) ↔
      (∃ text ∈ values "offset" parameters, ∃ cause, ReadsOffset text (.error cause)) ∨
        ∀ table, (values "table" parameters).getLast? = some table → Text.trimmed table = "") ∧
    (∀ parameters other,
      (∀ name ∈ reservedNames, values name parameters = values name other) →
      unreserved parameters = unreserved other → ofParameters parameters = ofParameters other) ∧
    ∀ request, Presentable request →
      (∀ parameters, Presents parameters request → ofParameters parameters = .ok request) ∧
      ∀ parameters, Presents (("table", request.table) :: parameters) request →
        (Command.ofArguments ("browse" :: request.table :: parameters.map Command.argument) =
            .ok (.browse request) ↔
          ∀ filter ∈ request.filters, '=' ∉ filter.1.toList) :=
  ⟨fun _ _ => offset?_eq_iff, fun _ _ => ofParameters_eq_iff, fun _ => ofParameters_eq_error_iff,
    fun _ _ => ofParameters_congr, fun _ hrequest =>
      ⟨fun _ h => h.ofParameters_eq hrequest, fun _ h => h.ofArguments_eq_ok_iff hrequest⟩⟩

/-- A request told with the offset between its filters, and with its reserved parameters
    last: it comes back from both, and from the command line. -/
theorem decodes_and_presents_between :
    let request : BrowseRequest :=
      { table := "users", filters := [("name", "ann"), ("city", "a=b")], sortColumn := some "age"
        sortOrder := .descending, offset := 50 }
    let between := [("name", "ann"), ("offset", "50"), ("sort_order", "DESC"), ("city", "a=b"),
      ("sort_column", "age")]
    let last := [("name", "ann"), ("city", "a=b"), ("table", "users"), ("sort_column", "age"),
      ("sort_order", "DESC"), ("offset", "50")]
    Presentable request ∧ Presents (("table", "users") :: between) request ∧
      ofParameters (("table", "users") :: between) = .ok request ∧
      ofParameters (("table", "users") :: between) = ofParameters last ∧
      Command.ofArguments ["browse", "users", "name=ann", "offset=50", "sort_order=DESC",
        "city=a=b", "sort_column=age"] = .ok (.browse request) := by
  intro request between last
  have hrequest : Presentable request :=
    { table := by decide
      sortColumn := by rintro _ ⟨⟩; decide
      offset := by decide
      filters := by decide }
  have hpresents : Presents (("table", "users") :: between) request :=
    { perm := by decide, filters := by decide }
  obtain ⟨-, -, -, hcongr, hback⟩ := decodes_and_presents
  obtain ⟨hparameters, harguments⟩ := hback request hrequest
  exact ⟨hrequest, hpresents, hparameters _ hpresents,
    hcongr _ last (by decide) (by decide), (harguments between hpresents).2 (by decide)⟩

end BrowseRequest

end ShadowCatalog
