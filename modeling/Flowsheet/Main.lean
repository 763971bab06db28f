import Flowsheet.Studio.Sample

/-! The program tells the sample run. -/

def main : IO Unit :=
  IO.println Flowsheet.Studio.sampleText
