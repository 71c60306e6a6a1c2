import Rgnr8.Service.ArApSpec

/-! The two control accounts and what lines move on them. A command of the flows has one line on
a control account and its other lines against it, on the other side; it moves the control accounts
by that one line exactly when none of the others is on a control account as well. -/

namespace Rgnr8.Service.ArAp
open Lib Lib.Js Fallible Kernel Subledger EntrySide List Except

def controlSide : DocKind → EntrySide
  | .invoice => .debit
  | .bill => .credit

/-- The codes of the receivables and of the payables account, two different accounts. -/
structure ControlCodes where
  code : DocKind → String
  ne : code .invoice ≠ code .bill

def defaultCodes : ControlCodes := ⟨fun kind => controlCodeOf kind defaultControls, by decide⟩

theorem getByCode_of_idFor {chart : ChartOfAccounts} {code role : String} {id : AccountId}
    (h : idFor chart code role = .ok id) : ∃ a, chart.getByCode code = some a ∧ a.id = id := by
  unfold idFor at h
  cases ha : chart.getByCode code with
  | none => rw [ha] at h; cases h
  | some a =>
    rw [ha] at h
    exact ⟨a, rfl, ok.inj h⟩

namespace ControlCodes
variable (c : ControlCodes) (chart : ChartOfAccounts)

def account (kind : DocKind) : Option Account := chart.getByCode (c.code kind)

def holds (id : AccountId) : Bool :=
  [DocKind.invoice, .bill].any fun kind => (c.account chart kind).any fun a => a.id = id

def linesOn (lines : List PostedLine) : List PostedLine :=
  lines.filter fun l => c.holds chart l.accountId

def net (kind : DocKind) (lines : List PostedLine) : Int :=
  match c.account chart kind with
  | none => 0
  | some a => (controlSide kind).signed (netOn a.id lines)

def balance (kind : DocKind) (journal : List PostedEntry) : Int :=
  match c.account chart kind with
  | none => 0
  | some a => (controlSide kind).signed (balanceOf a.id journal)

def Used (ctrl : ControlAccounts) : Prop := ∀ kind, controlCodeOf kind ctrl = c.code kind

variable {c chart}

theorem code_inj {k k' : DocKind} : c.code k = c.code k' ↔ k = k' := by
  have hne := c.ne
  have hne' := c.ne.symm
  cases k <;> cases k' <;> simp [hne, hne']

theorem holds_iff {id : AccountId} :
    c.holds chart id = true ↔ ∃ kind a, c.account chart kind = some a ∧ a.id = id := by
  rw [holds, any_eq_true]
  constructor
  · rintro ⟨kind, -, h⟩
    cases ha : c.account chart kind with
    | none => rw [ha] at h; cases h
    | some a =>
      rw [ha] at h
      exact ⟨kind, a, ha, of_decide_eq_true h⟩
  · rintro ⟨kind, a, ha, hid⟩
    refine ⟨kind, by cases kind <;> simp, ?_⟩
    rw [ha]
    exact decide_eq_true hid

theorem net_append (kind : DocKind) (lines lines' : List PostedLine) :
    c.net chart kind (lines ++ lines') = c.net chart kind lines + c.net chart kind lines' := by
  unfold net
  cases c.account chart kind with
  | none => rfl
  | some a =>
    dsimp only
    rw [netOn_append, signed_add]

theorem balance_concat (kind : DocKind) (journal : List PostedEntry) (e : PostedEntry) :
    c.balance chart kind (journal ++ [e]) =
      c.balance chart kind journal + c.net chart kind e.lines := by
  unfold balance net
  cases c.account chart kind with
  | none => rfl
  | some a =>
    dsimp only
    rw [balanceOf_concat, signed_add]

theorem balance_nil (kind : DocKind) : c.balance chart kind [] = 0 := by
  unfold balance
  cases c.account chart kind with
  | none => rfl
  | some a =>
    dsimp only
    rw [balanceOf_nil, signed_zero]

theorem net_anchor {kind : DocKind} {role : String} {l : PostedLine}
    (hl : idFor chart (c.code kind) role = .ok l.accountId) (k : DocKind) :
    c.net chart k [l] =
      if k = kind then (controlSide kind).signed (l.side.signed l.amount.minorUnits) else 0 := by
  obtain ⟨b, hb, hid⟩ := getByCode_of_idFor hl
  unfold net
  cases ha : c.account chart k with
  | none =>
    have hne : k ≠ kind := by
      rintro rfl
      rw [account, hb] at ha
      cases ha
    exact (if_neg hne).symm
  | some a =>
    have hiff : l.accountId = a.id ↔ k = kind := by
      rw [← hid, ChartOfAccounts.id_eq_of_getByCode hb ha, code_inj]
      exact eq_comm
    dsimp only
    rw [netOn_cons, netOn_nil, Int.add_zero]
    by_cases hk : k = kind
    · rw [if_pos (hiff.mpr hk), if_pos hk, hk]
    · rw [if_neg (fun h => hk (hiff.mp h)), if_neg hk, signed_zero]

theorem net_of_off {lines : List PostedLine}
    (h : ∀ l ∈ lines, ¬ c.holds chart l.accountId = true) (k : DocKind) :
    c.net chart k lines = 0 := by
  unfold net
  cases ha : c.account chart k with
  | none => rfl
  | some a =>
    have hoff : ∀ l ∈ lines, l.accountId ≠ a.id :=
      fun l hl hid => h l hl (holds_iff.mpr ⟨k, a, ha, hid.symm⟩)
    dsimp only
    rw [netOn_of_off hoff, signed_zero]

theorem net_ne_zero {side : EntrySide} {lines : List PostedLine}
    (h : ∀ l ∈ lines, l.side = side ∧ 0 < l.amount.minorUnits) {l : PostedLine} (hl : l ∈ lines)
    (hon : c.holds chart l.accountId = true) : ∃ k, c.net chart k lines ≠ 0 := by
  obtain ⟨k, a, ha, hid⟩ := holds_iff.mp hon
  have hpos : 0 < side.signed (netOn a.id lines) := (signed_netOn h).2 ⟨l, hl, hid.symm⟩
  refine ⟨k, fun hzero => ?_⟩
  rw [net, ha] at hzero
  have hnet := congrArg (controlSide k).signed hzero
  rw [signed_signed, signed_zero] at hnet
  rw [hnet, signed_zero] at hpos
  omega

/-- One line on the control account of a kind, owed there by `amount`, and lines against it. -/
structure Anchored (c : ControlCodes) (chart : ChartOfAccounts) (kind : DocKind) (amount : Int)
    (pre : List PostedLine) (l : PostedLine) (post : List PostedLine) : Prop where
  anchor : ∃ role, idFor chart (c.code kind) role = .ok l.accountId
  moves : (controlSide kind).signed (l.side.signed l.amount.minorUnits) = amount
  against : ∀ x ∈ pre ++ post, x.side = l.side.swap ∧ 0 < x.amount.minorUnits

section
variable {kind : DocKind} {amount : Int} {pre post : List PostedLine} {l : PostedLine}

theorem Anchored.net_eq (h : Anchored c chart kind amount pre l post) (k : DocKind) :
    c.net chart k (pre ++ l :: post) =
      c.net chart k (pre ++ post) + if k = kind then amount else 0 := by
  obtain ⟨role, hl⟩ := h.anchor
  have hsplit : c.net chart k (pre ++ l :: post) =
      c.net chart k pre + (c.net chart k [l] + c.net chart k post) := by
    rw [net_append, ← net_append k [l] post]
    rfl
  rw [hsplit, net_anchor hl, h.moves, net_append]
  omega

theorem Anchored.linesOn_length (h : Anchored c chart kind amount pre l post) :
    (c.linesOn chart (pre ++ l :: post)).length = (c.linesOn chart (pre ++ post)).length + 1 := by
  obtain ⟨role, hl⟩ := h.anchor
  obtain ⟨a, ha, hid⟩ := getByCode_of_idFor hl
  have hon : c.holds chart l.accountId = true := holds_iff.mpr ⟨kind, a, ha, hid⟩
  simp only [linesOn, filter_append, filter_cons, hon, if_true, length_append, length_cons]
  omega

theorem Anchored.moves_iff (h : Anchored c chart kind amount pre l post) :
    (∀ k, c.net chart k (pre ++ l :: post) = if k = kind then amount else 0) ↔
      (c.linesOn chart (pre ++ l :: post)).length = 1 := by
  have hlength := h.linesOn_length
  constructor
  · intro hnet
    by_contra hmore
    have hnon : c.linesOn chart (pre ++ post) ≠ [] := by
      intro hnil
      rw [hnil] at hlength
      exact hmore hlength
    -- a line against the anchor is on a control account, and nothing makes up for it
    obtain ⟨x, hx⟩ := exists_mem_of_ne_nil _ hnon
    obtain ⟨hmem, hon⟩ := mem_filter.mp hx
    obtain ⟨k, hk⟩ := net_ne_zero h.against hmem hon
    have hk' := hnet k
    rw [h.net_eq] at hk'
    exact hk (by omega)
  · intro hone k
    have hnil : c.linesOn chart (pre ++ post) = [] := length_eq_zero_iff.mp (by omega)
    have hoff : ∀ x ∈ pre ++ post, ¬ c.holds chart x.accountId = true :=
      filter_eq_nil_iff.mp hnil
    rw [h.net_eq, net_of_off hoff, Int.zero_add]

end
end ControlCodes

/-! What the flows move on the control accounts: each command is anchored on the control account
of its kind by the amount by which the flow moves the open item. -/

structure CommandMoves (c : ControlCodes) (ctx : ArApContext) (kind : DocKind) (amount : Int)
    (cmd : PostCommand) : Prop where
  tenant : cmd.tenantId = ctx.tenant
  anchored : ∃ pre l post, cmd.lines = pre ++ l :: post ∧
    c.Anchored ctx.chart kind amount pre l post

variable {c : ControlCodes} {ctx : ArApContext}

variable {chart : ChartOfAccounts} {req : CreateDocumentRequest} {currency : Currency}
variable {kind : DocKind} {doc : DocRecord} {amount : Int} {docLines : List DocumentLine}
variable {draft : PostCommand × Int} {docId : String}

theorem against_items {lines : List ResolvedLine}
    (h : List.Forall₂ (Resolves currency) docLines lines) (hpos : ∀ l ∈ docLines, 0 < l.minor)
    (side : EntrySide) :
    ∀ x ∈ lines.map (itemLine side), x.side = side ∧ 0 < x.amount.minorUnits := by
  intro x hx
  obtain ⟨r, hr, rfl⟩ := mem_map.mp hx
  obtain ⟨line, hmem, hline⟩ := exists_of_forall₂ h hr
  have hamt : 0 < r.amount.minorUnits := by
    rw [hline.amount]
    exact hpos line hmem
  exact ⟨rfl, hamt⟩

theorem anchored_lineCommand {idPrefix : String} {side : DocumentSide} {anchorSide : EntrySide}
    {doc : LineDocument} {anchor : AccountId} {post : DocPostContext} {cmd : PostCommand}
    {role : String} (h : lineCommand idPrefix side anchorSide doc anchor post = .ok cmd)
    (hpos : ∀ l ∈ doc.lines, 0 < l.minor) (hanch : idFor chart (c.code kind) role = .ok anchor) :
    cmd.tenantId = post.tenantId ∧ ∃ pre l rest, cmd.lines = pre ++ l :: rest ∧
      c.Anchored chart kind ((controlSide kind).signed
        (anchorSide.signed (doc.lines.map DocumentLine.minor).sum)) pre l rest := by
  obtain ⟨lines, hlines, rfl⟩ := lineCommand_eq_ok h
  have hitems := against_items hlines hpos anchorSide.swap
  let total : Money := ⟨(doc.lines.map DocumentLine.minor).sum, post.currency⟩
  let items := lines.map (itemLine anchorSide.swap)
  refine ⟨rfl, ?_⟩
  by_cases hside : anchorSide = .debit
  · refine ⟨[], anchorLine ⟨anchor, anchorSide⟩ total, items, if_pos hside, ⟨role, hanch⟩, rfl, ?_⟩
    exact hitems
  · refine ⟨items, anchorLine ⟨anchor, anchorSide⟩ total, [], if_neg hside, ⟨role, hanch⟩, rfl, ?_⟩
    rw [append_nil]
    exact hitems

/-! Raising a document. -/

/-- What building says about a wire line, its posted and its stored form. -/
structure Built (x : DocumentLine × DocLineRecord) : Prop where
  minor : x.1.minor = x.2.amountMinor
  pos : 0 < x.2.amountMinor

theorem pos_of_quantityOf {code : String} {quantity : Option JsNumber} {qty : Int}
    (h : quantityOf code quantity = .ok qty) : 0 < qty := by
  unfold quantityOf at h
  cases hn : integerOf (quantity.getD (some 1)) with
  | none => rw [hn] at h; cases h
  | some n =>
    rw [hn] at h
    obtain ⟨hpos, h⟩ := refuse_eq_ok.mp h
    rw [← ok.inj h]
    omega

theorem built {l : DocumentLineInput} {x : DocumentLine × DocLineRecord}
    (h : buildLine chart currency l = .ok x) : Built x := by
  simp only [buildLine, bind_eq_ok, refuse_eq_ok] at h
  obtain ⟨id, -, unit, -, hunit, qty, hqty, hx⟩ := h
  have hx := ok.inj hx
  subst hx
  refine ⟨rfl, ?_⟩
  exact Int.mul_pos (not_le.mp hunit) (pos_of_quantityOf hqty)

/-- What the loop over the wire lines leaves. -/
structure LinesBuilt (b : BuiltLines) : Prop where
  total : (b.docLines.map DocumentLine.minor).sum = b.totalMinor
  pos : ∀ l ∈ b.docLines, 0 < l.minor

theorem linesBuilt {b : BuiltLines} (h : buildLines req chart currency = .ok b) : LinesBuilt b := by
  rw [buildLines, bind_eq_ok] at h
  obtain ⟨xs, hxs, hb⟩ := h
  have hb := ok.inj hb
  subst hb
  have hall := (mapM_eq_ok.mp hxs).imp fun _ _ hx => built hx
  have hbuilt : ∀ x ∈ xs, Built x := by
    intro x hx
    obtain ⟨l, -, hlx⟩ := exists_of_forall₂ hall hx
    exact hlx
  refine ⟨?_, fun d hd => ?_⟩
  · rw [map_map]
    exact congrArg sum (map_congr_left fun x hx => (hbuilt x hx).minor)
  · obtain ⟨x, hx, rfl⟩ := mem_map.mp hd
    rw [(hbuilt x hx).minor]
    exact (hbuilt x hx).pos

theorem moves_invoiceCommand {ratePpm : Int}
    (h : invoiceCommand req ctx docLines ratePpm = .ok draft)
    (hctrl : c.Used (controls ctx.localeLe ctx.chart req.accounts))
    (hpos : ∀ l ∈ docLines, 0 < l.minor) : 0 ≤ draft.2 ∧ CommandMoves c ctx .invoice
      ((docLines.map DocumentLine.minor).sum + draft.2) draft.1 := by
  simp only [invoiceCommand, bind_eq_ok, mapError_eq_ok] at h
  obtain ⟨ar, har, payable, -, r, hr, hd⟩ := h
  have hd := ok.inj hd
  subst hd
  obtain ⟨lines, ht⟩ := taxedInvoice hr
  have htax := ht.tax fun l hl => (hpos l hl).le
  have hitems := against_items ht.resolved hpos .credit
  have htaxs : ∀ x ∈ taxLines payable r.tax, x.side = .credit ∧ 0 < x.amount.minorUnits := by
    intro x hx
    unfold taxLines at hx
    by_cases hzero : r.tax.minorUnits = 0
    · rw [if_pos hzero] at hx
      exact absurd hx not_mem_nil
    · rw [if_neg hzero] at hx
      rw [mem_singleton.mp hx]
      exact ⟨rfl, lt_of_le_of_ne htax (Ne.symm hzero)⟩
  have har' : idFor ctx.chart (c.code .invoice) "AR control" = .ok ar := by
    rw [← hctrl .invoice]
    exact har
  have hlines := congrArg PostCommand.lines ht.command
  have htenant := congrArg PostCommand.tenantId ht.command
  refine ⟨htax, htenant, [], anchorLine ⟨ar, .debit⟩ r.total,
    lines.map (itemLine .credit) ++ taxLines payable r.tax, hlines, ⟨_, har'⟩, ht.total, ?_⟩
  intro x hx
  rw [nil_append] at hx
  rcases mem_append.mp hx with hx | hx
  · exact hitems x hx
  · exact htaxs x hx

theorem moves_billCommand (h : billCommand req ctx docLines = .ok draft)
    (hctrl : c.Used (controls ctx.localeLe ctx.chart req.accounts))
    (hpos : ∀ l ∈ docLines, 0 < l.minor) :
    draft.2 = 0 ∧ CommandMoves c ctx .bill (docLines.map DocumentLine.minor).sum draft.1 := by
  simp only [billCommand, bind_eq_ok, mapError_eq_ok] at h
  obtain ⟨ap, hap, cmd, hcmd, hd⟩ := h
  have hd := ok.inj hd
  subst hd
  have hap' : idFor ctx.chart (c.code .bill) "AP control" = .ok ap := by
    rw [← hctrl .bill]
    exact hap
  obtain ⟨htenant, pre, l, post, hlines, hanc⟩ := anchored_lineCommand hcmd hpos hap'
  refine ⟨rfl, htenant, pre, l, post, hlines, ?_⟩
  exact (Int.neg_neg (docLines.map DocumentLine.minor).sum) ▸ hanc

/-- A document as it is raised: open in full. -/
structure Raised (c : ControlCodes) (ctx : ArApContext) (kind : DocKind) (id : String)
    (draft : PostCommand × DocRecord) : Prop where
  moves : CommandMoves c ctx kind draft.2.openMinor draft.1
  pos : 0 < draft.2.openMinor
  tax_le : draft.2.taxMinor ≤ draft.2.totalMinor
  kind_eq : draft.2.kind = kind
  id_eq : draft.2.id = id

theorem moves_documentCommand {b : BuiltLines} {ratePpm : Int}
    (h : documentCommand kind req ctx b.docLines ratePpm = .ok draft)
    (hctrl : c.Used (controls ctx.localeLe ctx.chart req.accounts)) (hb : LinesBuilt b) :
    0 ≤ draft.2 ∧ CommandMoves c ctx kind (b.totalMinor + draft.2) draft.1 := by
  rw [← hb.total]
  cases kind with
  | invoice => exact moves_invoiceCommand h hctrl hb.pos
  | bill =>
    obtain ⟨htax, hmoves⟩ := moves_billCommand h hctrl hb.pos
    rw [htax, Int.add_zero]
    exact ⟨le_rfl, hmoves⟩

theorem raised {party : PartyRecord} {draft : PostCommand × DocRecord}
    (h : draftDocument kind req ctx party = .ok draft)
    (hctrl : c.Used (controls ctx.localeLe ctx.chart req.accounts)) :
    Raised c ctx kind req.id draft := by
  simp only [draftDocument, bind_eq_ok, refuse_eq_ok] at h
  obtain ⟨b, hbuilt, hpos, due, -, rate, -, cmd, hcmd, hd⟩ := h
  have hd := ok.inj hd
  subst hd
  obtain ⟨htax, hmoves⟩ := moves_documentCommand hcmd hctrl (linesBuilt hbuilt)
  refine ⟨hmoves, ?_, ?_, rfl, rfl⟩
  · dsimp only
    omega
  · dsimp only
    omega

/-! Payments and credits. -/

theorem controlCodeOf_paymentControls (kind : DocKind) (req : RecordPaymentRequest)
    (ctx : ArApContext) (accounts : ControlOverrides) :
    controlCodeOf kind (paymentControls req ctx accounts) =
      controlCodeOf kind (controls ctx.localeLe ctx.chart accounts) := by
  cases kind <;> rfl

theorem payableAmount_eq_ok {req : RecordPaymentRequest}
    (h : payableAmount kind docId req doc = .ok amount) :
    minorOf req.amountMinor "amount_minor" = .ok amount ∧ 0 < amount ∧ amount ≤ doc.openMinor := by
  simp only [payableAmount, bind_eq_ok, refuse_eq_ok] at h
  obtain ⟨a, ha, hpos, -, hle, h⟩ := h
  rw [← ok.inj h]
  exact ⟨ha, not_le.mp hpos, not_lt.mp hle⟩

theorem moves_draftPayment {req : RecordPaymentRequest} {accounts : ControlOverrides}
    {draft : PaymentDraft} (h : draftPayment kind docId req ctx accounts doc = .ok draft)
    (hctrl : c.Used (controls ctx.localeLe ctx.chart accounts)) : 0 < draft.amount ∧
      ∃ pre l post, draft.lines = pre ++ l :: post ∧
        c.Anchored ctx.chart kind (-draft.amount) pre l post := by
  simp only [draftPayment, bind_eq_ok] at h
  obtain ⟨amount, hamt, -, -, bank, -, control, hctl, hd⟩ := h
  have hd := ok.inj hd
  subst hd
  have hpos := (payableAmount_eq_ok hamt).2.1
  rw [controlCodeOf_paymentControls, hctrl kind] at hctl
  refine ⟨hpos, ?_⟩
  -- the bank line is first where money comes in, last where it goes out
  cases kind with
  | invoice =>
    refine ⟨[_], _, [], rfl, ⟨_, hctl⟩, rfl, fun x hx => ?_⟩
    rw [mem_singleton.mp hx]
    exact ⟨rfl, hpos⟩
  | bill =>
    refine ⟨[], _, [_], rfl, ⟨_, hctl⟩, rfl, fun x hx => ?_⟩
    rw [mem_singleton.mp hx]
    exact ⟨rfl, hpos⟩

theorem reversal_total {tax total : Int} (hamt : 0 < amount) (htax : 0 < tax)
    (htot : 0 < total) (hle : tax ≤ total) :
    0 ≤ (amount * tax).tdiv total ∧ (amount * tax).tdiv total ≤ amount := by
  have hmul : 0 ≤ amount * tax := (Int.mul_pos hamt htax).le
  refine ⟨Int.tdiv_nonneg hmul htot.le, ?_⟩
  rw [Int.tdiv_eq_ediv_of_nonneg hmul]
  refine Int.ediv_le_of_le_mul htot ?_
  exact mul_le_mul_of_nonneg_left hle hamt.le

theorem minor_reversalLine (id : AccountId) (amount : Int) (currency : Currency) (memo : String) :
    (reversalLine id amount currency memo).minor = amount := Int.mul_one amount

theorem reversalLines_spec {code : String} {req : CreditRequest} {memo : String}
    {lines : List DocumentLine} (h : reversalLines ctx doc amount code req memo = .ok lines)
    (hamt : 0 < amount) (htax : doc.taxMinor ≤ doc.totalMinor) :
    (∀ l ∈ lines, 0 < l.minor) ∧ (lines.map DocumentLine.minor).sum = amount := by
  rw [reversalLines, bind_eq_ok] at h
  obtain ⟨revenue, -, h⟩ := h
  by_cases hplain : doc.kind ≠ .invoice ∨ doc.taxMinor ≤ 0 ∨ doc.totalMinor ≤ 0
  · rw [if_pos hplain] at h
    rw [← ok.inj h]
    refine ⟨fun l hl => ?_, ?_⟩
    · rw [mem_singleton.mp hl, minor_reversalLine]
      exact hamt
    · rw [map_singleton, sum_singleton, minor_reversalLine]
  · rw [if_neg hplain, bind_eq_ok] at h
    obtain ⟨taxId, -, h⟩ := h
    have h := ok.inj h
    rw [not_or, not_or, not_le, not_le] at hplain
    obtain ⟨-, htaxP, htots⟩ := hplain
    obtain ⟨hshare, hshar⟩ := reversal_total hamt htaxP htots htax
    generalize (amount * doc.taxMinor).tdiv doc.totalMinor = share at h hshare hshar
    subst h
    constructor
    · intro l hl
      rcases mem_append.mp hl with hl | hl
      · split_ifs at hl with hnet
        · rw [mem_singleton.mp hl, minor_reversalLine]
          exact hnet
        · exact absurd hl not_mem_nil
      · split_ifs at hl with hnet
        · rw [mem_singleton.mp hl, minor_reversalLine]
          exact hnet
        · exact absurd hl not_mem_nil
    · -- a portion that is left out is nothing
      rw [map_append, sum_append]
      split_ifs <;> simp [minor_reversalLine] <;> omega

theorem creditAmountOf_pos {req : CreditRequest} (h : creditAmountOf req doc = .ok amount)
    (hopen : 0 < doc.openMinor) : 0 < amount := by
  unfold creditAmountOf at h
  split at h
  · rwa [← ok.inj h]
  · rwa [← ok.inj h]
  · simp only [bind_eq_ok, refuse_eq_ok] at h
    obtain ⟨a, -, hpos, h⟩ := h
    rw [← ok.inj h]
    exact not_le.mp hpos

theorem moves_creditCommand {credit : LineDocument} {control : AccountId} {cmd : PostCommand}
    {role : String} (h : creditCommand kind credit control ctx = .ok cmd)
    (hpos : ∀ l ∈ credit.lines, 0 < l.minor)
    (hctl : idFor ctx.chart (c.code kind) role = .ok control) :
    CommandMoves c ctx kind (-(credit.lines.map DocumentLine.minor).sum) cmd := by
  cases kind with
  | invoice =>
    obtain ⟨htenant, hanc⟩ := anchored_lineCommand h hpos hctl
    exact ⟨htenant, hanc⟩
  | bill =>
    obtain ⟨htenant, hanc⟩ := anchored_lineCommand h hpos hctl
    exact ⟨htenant, hanc⟩

theorem moves_draftCredit {date : String} {req : CreditRequest} {draft : CreditDraft}
    (h : draftCredit kind docId date req ctx doc = .ok draft)
    (hctrl : c.Used (controls ctx.localeLe ctx.chart req.accounts))
    (htax : doc.taxMinor ≤ doc.totalMinor) :
    0 < draft.amount ∧ CommandMoves c ctx kind (-draft.amount) draft.command := by
  simp only [draftCredit, bind_eq_ok, refuse_eq_ok, mapError_eq_ok] at h
  obtain ⟨hopen, amount, hamt, -, code, -, -, -, lines, hlines, control, hctl, cmd,
    hcmd, hd⟩ := h
  have hd := ok.inj hd
  subst hd
  have hpos := creditAmountOf_pos hamt (not_le.mp hopen)
  obtain ⟨hlin, htot⟩ := reversalLines_spec hlines hpos htax
  rw [hctrl kind] at hctl
  have hmoves := moves_creditCommand hcmd hlin hctl
  refine ⟨hpos, ?_⟩
  rwa [← htot]

end Rgnr8.Service.ArAp
