/-!
# The published names

The names that the tool publishes, by the part that publishes them, with the version.
-/

namespace CoreTiming.Catalogue

/-- `_MODULES`: the published names of each part, in the order of publication. -/
def parts : List (String × List String) :=
  [("errors",
      ["ErrorSeverity", "ErrorCode", "WcetErrorCodes", "WcetError", "DisassemblerError",
        "AlignmentError", "ConfigurationError", "UnknownOpcodeError",
        "UnknownLibraryFunctionError", "TraceError", "MissingTraceFileError", "TraceFormatError"]),
    ("program",
      ["MachineInstruction", "MachineFunction", "MachineFunctionList", "SymbolExtractor"]),
    ("cost_model",
      ["Opcode", "LibraryRoutine", "OPCODE_COST", "LIBRARY_ROUTINE_COST", "PIPELINE_REFILL",
        "cycle_cost", "is_library_function", "lib_cycle_cost", "instruction_wcet", "path_wcet",
        "edge_wcet"]),
    ("objdump",
      ["FunctionLabelLine", "InstructionLine", "parse_line"]),
    ("aligner",
      ["AlignmentRules", "AlignmentStats", "align_disassembly", "extract_symbols"]),
    ("trace",
      ["TraceEvent", "WildcatSimulatorTrace"]),
    ("config",
      ["AnalysisOptions", "MachineConfig", "default_machine_config", "configure_logging"]),
    ("architecture",
      ["WildcatArchitecture", "architecture_for", "register_architecture"])]

/-- The names that describe the publication itself. -/
def ownNames : List String := ["list_submodules", "__version__"]

/-- All published names, in order. -/
def names : List String := parts.flatMap (·.2) ++ ownNames

/-- `list_submodules`: the parts, in the order of their characters. -/
def partNames : List String := (parts.map (·.1)).mergeSort fun a b => a ≤ b

/-- The version. -/
def version : String := "0.1.0"

end CoreTiming.Catalogue
