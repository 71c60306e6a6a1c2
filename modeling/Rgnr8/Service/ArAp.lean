import Rgnr8.Subledger.Documents
import Rgnr8.Service.DocumentStore

/-! Accounts receivable and payable. Each flow reads the document, posts a balanced entry through
the kernel and then writes the open item back; the three are separate steps on the stores. -/

namespace Rgnr8.Service.ArAp
open Lib Lib.Js Kernel Subledger

/-- What the flows may ask of the ledger and of the documents, one atomic step each. -/
inductive ArApCall where
  | ledger (c : LedgerCall)
  | getDoc (tenant : TenantId) (kind : DocKind) (id : String)
  | getParty (tenant : TenantId) (kind : PartyKind) (id : String)
  | saveDoc (tenant : TenantId) (doc : DocRecord)
  | setOpen (tenant : TenantId) (kind : DocKind) (id : String) (openMinor : Int) (status : DocStatus)
  | addPayment (tenant : TenantId) (payment : PaymentRecord)
  | listPayments (tenant : TenantId) (kind : DocKind) (docId : String)

abbrev ArApCall.Answer : ArApCall → Type
  | ledger c => c.Answer
  | getDoc _ _ _ => Option DocRecord
  | getParty _ _ _ => Option PartyRecord
  | saveDoc _ _ | setOpen _ _ _ _ _ | addPayment _ _ => Unit
  | listPayments _ _ _ => List PaymentRecord

structure ArApStores (π : Type) where
  ledger : Ledger π
  docs : InMemoryDocumentStore

def ArApCall.exec {π : Type} [PeriodStore π] :
    (c : ArApCall) → ArApStores π → c.Answer × ArApStores π
  | ledger c, s => ((c.exec s.ledger).1, { s with ledger := (c.exec s.ledger).2 })
  | getDoc t k id, s => (s.docs.getDoc t k id, s)
  | getParty t k id, s => (s.docs.getParty t k id, s)
  | saveDoc t d, s => ((), { s with docs := s.docs.saveDoc t d })
  | setOpen t k id o status, s => ((), { s with docs := s.docs.setOpen t k id o status })
  | addPayment t p, s => ((), { s with docs := s.docs.addPayment t p })
  | listPayments t k id, s => (s.docs.listPayments t k id, s)

inductive ArApFailure where
  | arAp (message : String)
  | date (message : String)
  | refused (message : String)
  | subledger (e : SubledgerError)
  | ledger (e : LedgerError)
  deriving DecidableEq

abbrev ArApProg := Prog ArApCall ArApCall.Answer ArApFailure

structure ControlAccounts where
  arCode : String
  apCode : String
  bankCode : String

structure ControlOverrides where
  arCode : Option String
  apCode : Option String
  bankCode : Option String

def defaultControls : ControlAccounts := ⟨"1200", "2000", "1000"⟩

def defaultSalesTaxCode : String := "2200"

structure DocumentLineInput where
  description : Option String
  quantity : Option JsNumber
  unitAmountMinor : TextOrNumber
  accountCode : String
  taxable : Option Bool
  dimensions : Option Dimensions

structure CreateDocumentRequest where
  id : String
  partyId : String
  date : String
  dueDate : Option String
  termsDays : Option JsNumber
  memo : Option String
  lines : List DocumentLineInput
  accounts : ControlOverrides
  taxRatePpm : Option JsNumber
  salesTaxCode : Option String

structure RecordPaymentRequest where
  id : Option String
  date : String
  amountMinor : TextOrNumber
  bankCode : Option String
  memo : Option String
  dimensions : Option Dimensions

structure CreditRequest where
  id : Option String
  date : Option String
  memo : Option String
  amountMinor : Option TextOrNumber
  accountCode : Option String
  salesTaxCode : Option String
  accounts : ControlOverrides

/-- The tenant's side of a request. `validate` is the dimension check borrowed from manual entries,
`localeLe` the order of `localeCompare`. -/
structure ArApContext where
  tenant : TenantId
  chart : ChartOfAccounts
  currency : Currency
  postedAt : String
  validate : Option (PostCommand → Except String Unit)
  localeLe : String → String → Bool

def found {α : Type} (x : Option α) (message : String) : Except ArApFailure α :=
  match x with
  | none => .error (.arAp message)
  | some a => .ok a

def idFor (chart : ChartOfAccounts) (code role : String) : Except ArApFailure AccountId :=
  match chart.getByCode code with
  | none => .error (.arAp s!"{role}: unknown account code {code}")
  | some account => .ok account.id

def controlCode (localeLe : String → String → Bool) (chart : ChartOfAccounts)
    (subtype : AccountSubtype) (fallback : String) : String :=
  let matching := chart.listActive.filter fun a => a.subtype = some subtype
  if matching.any fun a => a.code = fallback then fallback
  else match matching.insertionSort fun a b => localeLe a.code b.code = true with
    | [] => fallback
    | a :: _ => a.code

def assertBankChosen (chart : ChartOfAccounts) (explicit : Option String) :
    Except ArApFailure Unit :=
  if explicit.getD "" ≠ "" then .ok ()
  else
    let banks := chart.listActive.filter fun a => a.subtype = some .bank
    let codes := ", ".intercalate (banks.map fun a => a.code)
    if 1 < banks.length ∧ ¬ banks.any fun a => a.code = defaultControls.bankCode then
      .error (.arAp (s!"this chart has {banks.length} bank accounts; say which one the money " ++
        s!"went through (bank_code: {codes})"))
    else .ok ()

def controls (localeLe : String → String → Bool) (chart : ChartOfAccounts)
    (overrides : ControlOverrides) : ControlAccounts where
  arCode := overrides.arCode.getD
    (controlCode localeLe chart .accountsReceivable defaultControls.arCode)
  apCode := overrides.apCode.getD
    (controlCode localeLe chart .accountsPayable defaultControls.apCode)
  bankCode := overrides.bankCode.getD (controlCode localeLe chart .bank defaultControls.bankCode)

def minorOf (v : TextOrNumber) (what : String) : Except ArApFailure Int :=
  match bigInt v with
  | some minor => .ok minor
  | none => .error (.arAp s!"{what} must be an integer minor-unit value")

def provenanceFor (kind date at_ : String) : Provenance :=
  ⟨"rgnr8", kind, "1", date, date, at_, "arap/1", "arap/1"⟩

def validateDoc (req : CreateDocumentRequest) : Except ArApFailure Unit :=
  if trim req.id = "" then .error (.arAp "a document needs an id")
  else if trim req.partyId = "" then .error (.arAp "a document needs a party")
  else if ¬ isIsoDate req.date then .error (.arAp "date must be YYYY-MM-DD")
  else if req.lines = [] then .error (.arAp "a document needs at least one line")
  else .ok ()

def quantityOf (code : String) (quantity : Option JsNumber) : Except ArApFailure Int :=
  match integerOf (quantity.getD (some 1)) with
  | some qty =>
    if qty < 1 then .error (.arAp s!"line {code}: quantity must be a positive whole number")
    else .ok qty
  | none => .error (.arAp s!"line {code}: quantity must be a positive whole number")

def nonBlank (text : Option String) : Option String := text.filter fun s => s ≠ ""

def buildLine (chart : ChartOfAccounts) (currency : Currency) (l : DocumentLineInput) :
    Except ArApFailure (DocumentLine × DocLineRecord) := do
  let code := trim l.accountCode
  let shown := if code = "" then "(blank)" else code
  let accountId ← idFor chart code s!"line {shown}"
  let unit ← minorOf l.unitAmountMinor s!"line {code} unit_amount_minor"
  if unit ≤ 0 then .error (.arAp s!"line {code}: unit amount must be positive")
  else
    let qty ← quantityOf code l.quantity
    let taxable : Bool := l.taxable ≠ some false
    return (
      ⟨nonBlank l.description, some qty, some ⟨unit, currency⟩, some accountId, some taxable,
        someDimensions l.dimensions⟩,
      ⟨l.description.getD "", qty, unit, code, unit * qty, taxable, someDimensions l.dimensions⟩)

structure BuiltLines where
  docLines : List DocumentLine
  records : List DocLineRecord
  totalMinor : Int

def buildLines (req : CreateDocumentRequest) (chart : ChartOfAccounts) (currency : Currency) :
    Except ArApFailure BuiltLines := do
  let built ← req.lines.mapM (buildLine chart currency)
  return ⟨built.map Prod.fst, built.map Prod.snd, (built.map fun b => b.2.amountMinor).sum⟩

def taxRateOf (req : CreateDocumentRequest) : Except ArApFailure Int :=
  match req.taxRatePpm with
  | none => .ok 0
  | some raw => match integerOf raw with
    | none => .error (.arAp "tax_rate_ppm must be a whole number of parts per million")
    | some rate =>
      if rate < 0 then .error (.arAp "tax_rate_ppm must be a whole number of parts per million")
      else if 1000000 < rate then .error (.arAp "a tax rate above 100% is a typo, not a rate")
      else .ok rate

def statusFor (openMinor totalMinor : Int) : DocStatus :=
  if openMinor ≤ 0 then .paid else if openMinor = totalMinor then .opened else .partlyPaid

def validated (ctx : ArApContext) (command : PostCommand) : Except ArApFailure Unit :=
  match ctx.validate with
  | none => .ok ()
  | some validate => (validate command).mapError .refused

def post (ctx : ArApContext) (command : PostCommand) : ArApProg PostedEntry := do
  Prog.ofExcept (validated ctx command)
  (PostingEngine.post ctx.chart command ⟨ctx.postedAt⟩).interpret
    (fun c => Prog.perform (ArApCall.ledger c)) .ledger

/-! Invoices and bills. -/

structure CreateDocumentResult where
  doc : DocRecord
  entryId : EntryId

def partyKindOf : DocKind → PartyKind
  | .invoice => .customer
  | .bill => .vendor

def textOr (text : Option String) (fallback : String) : String :=
  if trim (text.getD "") = "" then fallback else trim (text.getD "")

def docContext (ctx : ArApContext) (object date : String) : DocPostContext :=
  ⟨ctx.tenant, ctx.currency, provenanceFor object date ctx.postedAt, none⟩

def taxFailure : SubledgerError → ArApFailure
  | .tax message => .arAp message
  | e => .subledger e

def salesTaxPayableOf (req : CreateDocumentRequest) (ctx : ArApContext) (arCode : String)
    (ratePpm : Int) : Except ArApFailure AccountId :=
  if 0 < ratePpm then
    idFor ctx.chart (textOr req.salesTaxCode defaultSalesTaxCode) "sales tax payable"
  else idFor ctx.chart arCode "AR control"

def invoiceCommand (req : CreateDocumentRequest) (ctx : ArApContext) (docLines : List DocumentLine)
    (ratePpm : Int) : Except ArApFailure (PostCommand × Int) := do
  let ctrl := controls ctx.localeLe ctx.chart req.accounts
  let arControl ← idFor ctx.chart ctrl.arCode "AR control"
  let salesTaxPayable ← salesTaxPayableOf req ctx ctrl.arCode ratePpm
  let taxed ← (taxedInvoiceToPostCommand ⟨req.id, req.date, docLines, nonBlank req.memo⟩
    ⟨arControl, salesTaxPayable⟩ ratePpm (docContext ctx "invoice" req.date)).mapError taxFailure
  return (taxed.command, taxed.tax.minorUnits)

def billCommand (req : CreateDocumentRequest) (ctx : ArApContext) (docLines : List DocumentLine) :
    Except ArApFailure (PostCommand × Int) := do
  let ctrl := controls ctx.localeLe ctx.chart req.accounts
  let apControl ← idFor ctx.chart ctrl.apCode "AP control"
  let command ← (billToPostCommand ⟨req.id, req.date, docLines, nonBlank req.memo⟩ apControl
    (docContext ctx "bill" req.date)).mapError .subledger
  return (command, 0)

variable (kind : DocKind) (req : CreateDocumentRequest)

def ratePpmOf : Except ArApFailure Int :=
  match kind with
  | .invoice => taxRateOf req
  | .bill => .ok 0

def documentCommand (ctx : ArApContext) (docLines : List DocumentLine) (ratePpm : Int) :
    Except ArApFailure (PostCommand × Int) :=
  match kind with
  | .invoice => invoiceCommand req ctx docLines ratePpm
  | .bill => billCommand req ctx docLines

def dueDateOf (party : PartyRecord) : Except ArApFailure String :=
  match req.dueDate with
  | some dueDate => .ok dueDate
  | none => (dueDateFromTerms req.date
      (some ((req.termsDays.or party.termsDays).getD (some 30)))).mapError .date

def draftDocument (ctx : ArApContext) (party : PartyRecord) :
    Except ArApFailure (PostCommand × DocRecord) := do
  let built ← buildLines req ctx.chart ctx.currency
  if built.totalMinor ≤ 0 then .error (.arAp "a document must total more than zero")
  else
    let dueDate ← dueDateOf req party
    let ratePpm ← ratePpmOf kind req
    let (command, taxMinor) ← documentCommand kind req ctx built.docLines ratePpm
    return (command, {
      id := req.id
      kind := kind
      partyId := req.partyId
      date := req.date
      dueDate := dueDate
      netMinor := built.totalMinor
      taxMinor := taxMinor
      taxRatePpm := ratePpm
      totalMinor := built.totalMinor + taxMinor
      openMinor := built.totalMinor + taxMinor
      status := .opened
      memo := req.memo.getD ""
      lines := built.records })

def createDocument (ctx : ArApContext) : ArApProg CreateDocumentResult := do
  Prog.ofExcept (validateDoc req)
  let existing ← Prog.perform (ArApCall.getDoc ctx.tenant kind req.id)
  Prog.refuseIf (existing ≠ none) (.arAp s!"{kind.text} {req.id} already exists")
  let party ← Prog.perform (ArApCall.getParty ctx.tenant (partyKindOf kind) req.partyId)
  let party ← Prog.ofExcept (found party s!"unknown {(partyKindOf kind).text} {req.partyId}")
  let (command, doc) ← Prog.ofExcept (draftDocument kind req ctx party)
  let entry ← post ctx command
  Prog.perform (ArApCall.saveDoc ctx.tenant doc)
  return ⟨doc, entry.id⟩

/-! Payments. -/

structure RecordPaymentResult where
  doc : DocRecord
  entryId : EntryId
  appliedMinor : Int

variable (docId : String)

/-- Overpayment is refused, against what is open on the document that was read. -/
def payableAmount (req : RecordPaymentRequest) (doc : DocRecord) : Except ArApFailure Int := do
  let amount ← minorOf req.amountMinor "amount_minor"
  if amount ≤ 0 then .error (.arAp "a payment must be positive")
  else if doc.openMinor ≤ 0 then .error (.arAp s!"{kind.text} {docId} is already settled")
  else if doc.openMinor < amount then
    .error (.arAp
      s!"payment {amount} exceeds the {doc.openMinor} still open on {kind.text} {docId}")
  else .ok amount

def paymentControls (req : RecordPaymentRequest) (ctx : ArApContext)
    (accounts : ControlOverrides) : ControlAccounts :=
  controls ctx.localeLe ctx.chart
    { accounts with bankCode := (nonBlank req.bankCode).or accounts.bankCode }

def paymentLines (req : RecordPaymentRequest) (bank control : AccountId) (money : Money) :
    List JournalLineInput :=
  match kind with
  | .invoice => [
      ⟨bank, .debit, money, some s!"Payment on {docId}", someDimensions req.dimensions⟩,
      ⟨control, .credit, money, some s!"Payment on {docId}", none⟩]
  | .bill => [
      ⟨control, .debit, money, some s!"Payment of {docId}", none⟩,
      ⟨bank, .credit, money, some s!"Payment of {docId}", someDimensions req.dimensions⟩]

def controlCodeOf (ctrl : ControlAccounts) : String :=
  match kind with
  | .invoice => ctrl.arCode
  | .bill => ctrl.apCode

def controlRole : DocKind → String
  | .invoice => "AR control"
  | .bill => "AP control"

structure PaymentDraft where
  amount : Int
  bankCode : String
  lines : List JournalLineInput

def draftPayment (req : RecordPaymentRequest) (ctx : ArApContext) (accounts : ControlOverrides)
    (doc : DocRecord) : Except ArApFailure PaymentDraft := do
  let amount ← payableAmount kind docId req doc
  assertBankChosen ctx.chart (req.bankCode.or accounts.bankCode)
  let ctrl := paymentControls req ctx accounts
  let bank ← idFor ctx.chart ctrl.bankCode "bank"
  let control ← idFor ctx.chart (controlCodeOf kind ctrl) (controlRole kind)
  return ⟨amount, ctrl.bankCode, paymentLines kind docId req bank control ⟨amount, ctx.currency⟩⟩

def paymentIdOf (req : RecordPaymentRequest) (ctx : ArApContext) : ArApProg String :=
  if trim (req.id.getD "") = "" then do
    let payments ← Prog.perform (ArApCall.listPayments ctx.tenant kind docId)
    return s!"{docId}-p{payments.length + 1}"
  else .ret (trim (req.id.getD ""))

def paymentCommand (req : RecordPaymentRequest) (ctx : ArApContext)
    (lines : List JournalLineInput) (paymentId : String) : PostCommand where
  tenantId := ctx.tenant
  idempotencyKey := s!"{kind.text}pay:{paymentId}"
  periodKey := String.ofList (req.date.toList.take 7)
  currency := ctx.currency
  entryDate := req.date
  lines := lines
  provenance := provenanceFor s!"{kind.text}.payment" req.date ctx.postedAt
  memo := some (req.memo.getD (match kind with
    | .invoice => s!"Payment received on {docId}"
    | .bill => s!"Payment of {docId}"))

def writePayment (req : RecordPaymentRequest) (ctx : ArApContext) (doc : DocRecord)
    (draft : PaymentDraft) (paymentId : String) (entry : PostedEntry) :
    ArApProg RecordPaymentResult := do
  let remaining := doc.openMinor - draft.amount
  let status := statusFor remaining doc.totalMinor
  Prog.perform (ArApCall.setOpen ctx.tenant kind docId remaining status)
  Prog.perform (ArApCall.addPayment ctx.tenant
    ⟨paymentId, kind, docId, req.date, draft.amount, draft.bankCode⟩)
  return ⟨{ doc with openMinor := remaining, status := status }, entry.id, draft.amount⟩

def recordPayment (req : RecordPaymentRequest) (ctx : ArApContext) (accounts : ControlOverrides) :
    ArApProg RecordPaymentResult := do
  Prog.refuseIf (¬ isIsoDate req.date) (.arAp "date must be YYYY-MM-DD")
  let doc ← Prog.perform (ArApCall.getDoc ctx.tenant kind docId)
  let doc ← Prog.ofExcept (found doc s!"unknown {kind.text} {docId}")
  let draft ← Prog.ofExcept (draftPayment kind docId req ctx accounts doc)
  let paymentId ← paymentIdOf kind docId req ctx
  let entry ← post ctx (paymentCommand kind docId req ctx draft.lines paymentId)
  writePayment kind docId req ctx doc draft paymentId entry

/-! Credits. -/

structure CreditResult where
  doc : DocRecord
  entryId : EntryId
  appliedMinor : Int

def fmt (minor : Int) : String :=
  let sign := if minor < 0 then "-" else ""
  s!"{sign}{minor.natAbs / 100}.{padStart 2 (minor.natAbs % 100)}"

def primaryAccountOf (doc : DocRecord) (override : Option String) : Except ArApFailure String :=
  let explicit := trim (override.getD "")
  if explicit ≠ "" then .ok explicit
  else
    let best := doc.lines.foldl (fun best l => match best with
      | none => some l
      | some b => if b.amountMinor < l.amountMinor then some l else some b) doc.lines.head?
    match best with
    | none => .error (.arAp s!"{doc.kind.text} {doc.id} has no lines to credit against")
    | some l => .ok l.accountCode

def assertNotControl (chart : ChartOfAccounts) (code : String) (doc : DocRecord) :
    Except ArApFailure Unit :=
  let subtype := (chart.getByCode code).bind fun a => a.subtype
  if subtype = some .accountsReceivable ∨ subtype = some .accountsPayable then
    .error (.arAp (s!"{doc.kind.text} {doc.id} came over from QuickBooks without its income or " ++
      "expense lines; say which account this credit or refund goes to (account_code)"))
  else .ok ()

def reversalLine (accountId : AccountId) (amount : Int) (currency : Currency)
    (description : String) : DocumentLine :=
  ⟨some description, some 1, some ⟨amount, currency⟩, some accountId, none, none⟩

def reversalLines (ctx : ArApContext) (doc : DocRecord) (amount : Int) (accountCode : String)
    (req : CreditRequest) (memo : String) : Except ArApFailure (List DocumentLine) := do
  let revenueId ← idFor ctx.chart accountCode s!"credit account {accountCode}"
  if doc.kind ≠ .invoice ∨ doc.taxMinor ≤ 0 ∨ doc.totalMinor ≤ 0 then
    return [reversalLine revenueId amount ctx.currency memo]
  else
    let taxPortion := (amount * doc.taxMinor).tdiv doc.totalMinor
    let netPortion := amount - taxPortion
    let taxId ← idFor ctx.chart (textOr req.salesTaxCode defaultSalesTaxCode) "sales tax payable"
    return (if 0 < netPortion then [reversalLine revenueId netPortion ctx.currency memo] else []) ++
      (if 0 < taxPortion then
        [reversalLine taxId taxPortion ctx.currency s!"{memo} — sales tax"] else [])

def creditAmountOf (req : CreditRequest) (doc : DocRecord) : Except ArApFailure Int :=
  match req.amountMinor with
  | none | some (.text "") => .ok doc.openMinor
  | some v => do
    let amount ← minorOf v "amount_minor"
    if amount ≤ 0 then .error (.arAp "a credit must be positive")
    else .ok amount

structure CreditDraft where
  amount : Int
  command : PostCommand

def creditDocument (docId date : String) (req : CreditRequest) (lines : List DocumentLine)
    (memo : String) : LineDocument :=
  ⟨textOr req.id s!"CM-{docId}-{date}", date, lines, some memo⟩

def creditCommand (credit : LineDocument) (control : AccountId) (ctx : ArApContext) :
    Except SubledgerError PostCommand :=
  match kind with
  | .invoice => creditMemoToPostCommand credit control (docContext ctx "credit-memo" credit.date)
  | .bill => vendorCreditToPostCommand credit control (docContext ctx "vendor-credit" credit.date)

def draftCredit (docId date : String) (req : CreditRequest) (ctx : ArApContext) (doc : DocRecord) :
    Except ArApFailure CreditDraft := do
  if doc.openMinor ≤ 0 then
    .error (.arAp (s!"{kind.text} {docId} is already settled — money that has been paid comes " ++
      "back as a refund, not a credit"))
  else
    let amount ← creditAmountOf req doc
    if doc.openMinor < amount then
      .error (.arAp (s!"{kind.text} {docId} has {fmt doc.openMinor} outstanding — a credit of " ++
        s!"{fmt amount} is more than that"))
    else
      let ctrl := controls ctx.localeLe ctx.chart req.accounts
      let accountCode ← primaryAccountOf doc req.accountCode
      assertNotControl ctx.chart accountCode doc
      let memo := textOr req.memo s!"Credit against {docId}"
      let lines ← reversalLines ctx doc amount accountCode req memo
      let credit := creditDocument docId date req lines memo
      let control ← idFor ctx.chart (controlCodeOf kind ctrl) (controlRole kind)
      let command ← (creditCommand kind credit control ctx).mapError .subledger
      return ⟨amount, command⟩

def issueCredit (req : CreditRequest) (ctx : ArApContext) : ArApProg CreditResult := do
  let date := trim (req.date.getD "")
  Prog.refuseIf (¬ isIsoDate date) (.arAp "date must be YYYY-MM-DD")
  let doc ← Prog.perform (ArApCall.getDoc ctx.tenant kind docId)
  let doc ← Prog.ofExcept (found doc s!"unknown {kind.text} {docId}")
  let draft ← Prog.ofExcept (draftCredit kind docId date req ctx doc)
  let entry ← post ctx draft.command
  let remaining := doc.openMinor - draft.amount
  Prog.perform (ArApCall.setOpen ctx.tenant kind docId remaining
    (statusFor remaining doc.totalMinor))
  let updated ← Prog.perform (ArApCall.getDoc ctx.tenant kind docId)
  return ⟨updated.getD doc, entry.id, draft.amount⟩

end Rgnr8.Service.ArAp
