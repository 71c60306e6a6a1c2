import Rgnr8.Kernel.Fingerprint

/-! Prebuilt charts of accounts by business category: a base every business needs, and the
category's own accounts over it. -/

namespace Rgnr8.Kernel
open Lib

inductive BusinessCategory where
  | serviceGeneral | professionalServices | contractorTrades | retail | ecommerce | restaurant
  | realEstate | healthcarePractice | nonprofit

structure TemplateLine where
  code : String
  name : String
  subtype : AccountSubtype

namespace CoaTemplates

def base : List TemplateLine :=
  [⟨"1000", "Business Checking", .bank⟩,
   ⟨"1010", "Business Savings", .bank⟩,
   ⟨"1050", "Undeposited Funds", .undepositedFunds⟩,
   ⟨"1200", "Accounts Receivable", .accountsReceivable⟩,
   ⟨"1400", "Prepaid Expenses", .otherCurrentAsset⟩,
   ⟨"1500", "Equipment", .fixedAsset⟩,
   ⟨"1510", "Accumulated Depreciation", .accumulatedDepreciation⟩,
   ⟨"2000", "Accounts Payable", .accountsPayable⟩,
   ⟨"2100", "Credit Card", .creditCard⟩,
   ⟨"2200", "Sales Tax Payable", .salesTaxPayable⟩,
   ⟨"2300", "Payroll Liabilities", .otherCurrentLiability⟩,
   ⟨"2700", "Long-Term Debt", .longTermLiability⟩,
   ⟨"3000", "Owner's Equity", .equity⟩,
   ⟨"3100", "Owner's Draw", .equity⟩,
   ⟨"3900", "Retained Earnings", .retainedEarnings⟩,
   ⟨"4000", "Services Income", .income⟩,
   ⟨"4900", "Other Income", .otherIncome⟩,
   ⟨"5000", "Cost of Services", .costOfGoodsSold⟩,
   ⟨"6000", "Advertising & Marketing", .expense⟩,
   ⟨"6050", "Bank & Merchant Fees", .expense⟩,
   ⟨"6100", "Insurance", .expense⟩,
   ⟨"6200", "Payroll — Wages", .expense⟩,
   ⟨"6210", "Payroll Taxes", .expense⟩,
   ⟨"6300", "Rent & Lease", .expense⟩,
   ⟨"6400", "Office Supplies", .expense⟩,
   ⟨"6500", "Software & Subscriptions", .expense⟩,
   ⟨"6600", "Professional Fees", .expense⟩,
   ⟨"6700", "Utilities", .expense⟩,
   ⟨"6800", "Travel & Meals", .expense⟩,
   ⟨"6900", "Depreciation Expense", .otherExpense⟩,
   ⟨"6950", "Interest Expense", .expense⟩]

def jobCosting : List TemplateLine :=
  [⟨"1250", "Costs in Excess of Billings", .otherCurrentAsset⟩,
   ⟨"1260", "Retainage Receivable", .otherCurrentAsset⟩,
   ⟨"1270", "Work in Progress", .otherCurrentAsset⟩,
   ⟨"2400", "Customer Deposits", .otherCurrentLiability⟩,
   ⟨"2450", "Billings in Excess of Costs", .otherCurrentLiability⟩,
   ⟨"5500", "Job Labor", .costOfGoodsSold⟩]

def extras : BusinessCategory → List TemplateLine
  | .serviceGeneral => []
  | .professionalServices =>
    [⟨"4100", "Consulting Income", .income⟩,
      ⟨"4200", "Retainer Income", .income⟩] ++
    jobCosting ++
    [⟨"1250", "Unbilled Receivables (WIP)", .otherCurrentAsset⟩,
      ⟨"5100", "Subcontractor Costs", .costOfGoodsSold⟩,
      ⟨"6610", "Continuing Education", .expense⟩]
  | .contractorTrades =>
    jobCosting ++
    [⟨"1300", "Materials Inventory", .inventory⟩,
      ⟨"4100", "Contract Income", .income⟩,
      ⟨"4200", "Change Orders", .income⟩,
      ⟨"1600", "Vehicles", .fixedAsset⟩,
      ⟨"5100", "Job Materials", .costOfGoodsSold⟩,
      ⟨"5200", "Subcontractors", .costOfGoodsSold⟩,
      ⟨"5300", "Equipment Rental", .costOfGoodsSold⟩,
      ⟨"5400", "Permits & Inspection Fees", .costOfGoodsSold⟩,
      ⟨"6110", "Workers' Compensation", .expense⟩,
      ⟨"6810", "Vehicle & Fuel", .expense⟩]
  | .retail =>
    [⟨"1300", "Inventory Asset", .inventory⟩,
      ⟨"4100", "Sales — Merchandise", .income⟩,
      ⟨"4300", "Sales Discounts", .income⟩,
      ⟨"5100", "Cost of Goods Sold — Merchandise", .costOfGoodsSold⟩,
      ⟨"5200", "Freight & Shipping In", .costOfGoodsSold⟩,
      ⟨"5300", "Inventory Shrinkage", .costOfGoodsSold⟩,
      ⟨"6020", "Merchant Processing Fees", .expense⟩]
  | .ecommerce =>
    [⟨"1300", "Inventory Asset", .inventory⟩,
      ⟨"4100", "Online Sales", .income⟩,
      ⟨"4300", "Marketplace Sales", .income⟩,
      ⟨"4400", "Shipping Income", .income⟩,
      ⟨"5100", "Cost of Goods Sold", .costOfGoodsSold⟩,
      ⟨"5200", "Shipping & Fulfillment", .costOfGoodsSold⟩,
      ⟨"5300", "Marketplace & Payment Fees", .costOfGoodsSold⟩,
      ⟨"6020", "Merchant Processing Fees", .expense⟩,
      ⟨"6510", "E-commerce Platform Fees", .expense⟩]
  | .restaurant =>
    [⟨"1300", "Food & Beverage Inventory", .inventory⟩,
      ⟨"2400", "Tips Payable", .otherCurrentLiability⟩,
      ⟨"4100", "Food Sales", .income⟩,
      ⟨"4200", "Beverage Sales", .income⟩,
      ⟨"4300", "Catering Income", .income⟩,
      ⟨"5100", "Food Costs", .costOfGoodsSold⟩,
      ⟨"5200", "Beverage Costs", .costOfGoodsSold⟩,
      ⟨"5300", "Kitchen Supplies", .costOfGoodsSold⟩,
      ⟨"6220", "Kitchen & Wait Staff Wages", .expense⟩]
  | .realEstate =>
    [⟨"1350", "Properties Held", .otherAsset⟩,
      ⟨"2500", "Security Deposits Held", .otherCurrentLiability⟩,
      ⟨"4100", "Commission Income", .income⟩,
      ⟨"4200", "Rental Income", .income⟩,
      ⟨"4300", "Management Fees", .income⟩,
      ⟨"5100", "Agent Commissions Paid", .costOfGoodsSold⟩,
      ⟨"6120", "Property Insurance", .expense⟩,
      ⟨"6710", "Property Maintenance", .expense⟩]
  | .healthcarePractice =>
    [⟨"1250", "Insurance Receivables", .accountsReceivable⟩,
      ⟨"1300", "Medical Supplies Inventory", .inventory⟩,
      ⟨"4100", "Patient Service Revenue", .income⟩,
      ⟨"4200", "Insurance Reimbursements", .income⟩,
      ⟨"4350", "Contractual Adjustments", .income⟩,
      ⟨"5100", "Medical Supplies", .costOfGoodsSold⟩,
      ⟨"5200", "Lab & Diagnostic Costs", .costOfGoodsSold⟩,
      ⟨"6220", "Clinical Staff Wages", .expense⟩,
      ⟨"6620", "Malpractice Insurance", .expense⟩]
  | .nonprofit =>
    [⟨"3050", "Net Assets Without Donor Restrictions", .equity⟩,
      ⟨"3060", "Net Assets With Donor Restrictions", .equity⟩,
      ⟨"4100", "Contributions & Donations", .income⟩,
      ⟨"4200", "Grant Revenue", .income⟩,
      ⟨"4300", "Program Service Fees", .income⟩,
      ⟨"4400", "Fundraising Events", .income⟩,
      ⟨"6250", "Program Expenses", .expense⟩,
      ⟨"6260", "Fundraising Expenses", .expense⟩,
      ⟨"6270", "Management & General", .expense⟩]

end CoaTemplates

/-- On codes of four digits `localeCompare` is the order of the code units. -/
def templateLines (category : BusinessCategory) : List TemplateLine :=
  let merged := (CoaTemplates.base ++ CoaTemplates.extras category).foldl
    (fun merged l => merged.set l.code l) (OrderedMap.empty : OrderedMap String TemplateLine)
  merged.values.insertionSort fun a b => utf16 a.code ≤ utf16 b.code

def accountIdFor (code : String) : AccountId := s!"acct:{code}"

def lineToAccount (line : TemplateLine) (currency : Currency) : Account where
  id := accountIdFor line.code
  code := line.code
  name := line.name
  type := accountTypeOfSubtype line.subtype
  currency := currency
  parentId := none
  subtype := some line.subtype
  active := some true
  origin := none

structure CodedAccounts where
  byCode : OrderedMap String Account
  coded : ∀ {code a}, byCode.get? code = some a → a.code = code ∧ a.id = accountIdFor code

namespace CodedAccounts

def empty : CodedAccounts := ⟨.empty, nofun⟩

def put (m : CodedAccounts) (account : Account) (h : account.id = accountIdFor account.code) :
    CodedAccounts where
  byCode := m.byCode.set account.code account
  coded := by
    intro code a ha
    rw [OrderedMap.get?_set] at ha
    split_ifs at ha with hcode
    · rw [← Option.some.inj ha, hcode]
      exact ⟨rfl, h⟩
    · exact m.coded ha

end CodedAccounts

def templateAccounts (category : BusinessCategory) (currency : Currency) : CodedAccounts :=
  (templateLines category).foldl (fun m l => m.put (lineToAccount l currency) rfl) .empty

theorem accountIdFor_injective : Function.Injective accountIdFor := by
  intro code code' h
  unfold accountIdFor at h
  have hchars : (toString code).toList = (toString code').toList := by
    simpa [← String.toList_inj] using h
  exact String.toList_inj.mp hchars

end Rgnr8.Kernel
